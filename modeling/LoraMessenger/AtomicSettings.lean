/-
The settings file on the disk.

`save` writes the text of a record beside the settings file, syncs it, renames
it over the file and syncs the directory.  Every call may fail or be the last
one; every step has a point where a test can make it fail.  A failure says
whether the file has been replaced.  `load` reads the file and parses it.

Before the rename a save leaves the name of the settings file alone, and after
it the name stands for the synced new text; until the directory is synced, a
loss of power may bring back what it stood for before:

* `Stands` — what the settings file stands for, and what may come back;
* `wp_save` — what every run of `save` leaves.
-/
import LoraMessenger.FileCalls
import LoraMessenger.SettingsJson

namespace Lora.AtomicSettings

open Crash Posix

inductive AtomicSettingsWritePoint where
  | parentDirectoryOpened
  | beforeTemporaryOpen
  | temporaryOpened
  | beforeWrite
  | temporaryWritten
  | beforeFileSync
  | temporarySynced
  | beforeTemporaryClose
  | temporaryClosed
  | beforeRename
  | finalReplaced
  | beforeDirectorySync
  | directorySynced
deriving DecidableEq

inductive SettingsStoreError where
  | invalidPath
  | notFound
  | createDirectoryFailed
  | openDirectoryFailed
  | openSettingsFailed
  | readSettingsFailed
  | closeSettingsFailed
  | decodeFailed
  | encodeFailed
  | removeStaleTemporaryFailed
  | openTemporaryFailed
  | setTemporaryPermissionsFailed
  | writeTemporaryFailed
  | syncTemporaryFailed
  | closeTemporaryFailed
  | renameFailed
  | syncDirectoryFailed
  | closeDirectoryFailed
  | injectedFailure
deriving DecidableEq

structure SettingsStoreFailure where
  error : SettingsStoreError
  systemError : ℕ := 0
  jsonError : Option SettingsJsonError := none
  writePoint : Option AtomicSettingsWritePoint := none
  finalReplaced : Bool := false
deriving DecidableEq

/-- The two names in the directory of the settings file. -/
inductive Name where
  | final
  | temporary
deriving DecidableEq

structure AtomicSettingsStore where
  finalPath : Bytes
  failpoint : AtomicSettingsWritePoint → Bool := fun _ => false

/-- The part of a path behind the last slash. -/
def filename (path : Bytes) : Bytes := (path.reverse.takeWhile (· ≠ 0x2f)).reverse

def AtomicSettingsStore.validPath (store : AtomicSettingsStore) : Bool :=
  store.finalPath.head? = some 0x2f ∧ filename store.finalPath ≠ [] ∧
    filename store.finalPath ≠ ascii "." ∧ filename store.finalPath ≠ ascii ".."

/-! ### Loading -/

/-- What happens to the calls of a load. -/
structure LoadCalls where
  opened : Option ℕ := none
  status : Option ℕ := none
  reads : List Reply := []
  closed : Option ℕ := none

/-- The loop around `read`; `rest` is what is still to be read. -/
def readLoop : (turns : ℕ) → (replies : List Reply) → (rest contents : Bytes) →
    Except SettingsStoreFailure Bytes
  | 0, _, _, _ => .error { error := .readSettingsFailed }
  | turns + 1, replies, rest, contents =>
    let take (count : ℕ) (replies : List Reply) : Except SettingsStoreFailure Bytes :=
      let size := min count (min 4096 rest.length)
      if size = 0 then .ok contents
      else if contents.length > kMaxSettingsJsonBytes - size then
        .error { error := .decodeFailed, jsonError := some .tooLarge }
      else readLoop turns replies (rest.drop size) (contents ++ rest.take size)
    match replies with
    | [] => take 4096 []
    | .short count :: replies => take count replies
    | .failed errno :: replies =>
      if errno = eIntr then readLoop turns replies rest contents
      else .error { error := .readSettingsFailed, systemError := errno }
    | _ :: replies => take 4096 replies

def AtomicSettingsStore.load (store : AtomicSettingsStore) (calls : LoadCalls)
    (volume : Volume Name) : Except SettingsStoreFailure SettingsRecord :=
  if !store.validPath then .error { error := .invalidPath, systemError := eInval }
  else
    match volume.find .final, calls.opened with
    | none, _ => .error { error := .notFound, systemError := eNoEnt }
    | some _, some errno =>
      .error
        { error := if errno = eNoEnt then .notFound else .openSettingsFailed, systemError := errno }
    | some node, none =>
      match calls.status, node with
      | some errno, _ => .error { error := .readSettingsFailed, systemError := errno }
      | none, .special => .error { error := .openSettingsFailed, systemError := eInval }
      | none, .regular file =>
        if file.contents.length > kMaxSettingsJsonBytes then
          .error { error := .decodeFailed, jsonError := some .tooLarge }
        else
          match readLoop (calls.reads.length + file.contents.length + 1) calls.reads file.contents
            [] with
          | .error failure => .error failure
          | .ok contents =>
            match calls.closed with
            | some errno => .error { error := .closeSettingsFailed, systemError := errno }
            | none =>
              match parseSettingsJson contents with
              | .error error => .error { error := .decodeFailed, jsonError := some error }
              | .ok record => .ok record

/-! ### Saving -/

/-- The variables of a save. -/
structure SaveLocals where
  temporaryOpen : Bool := false
  finalReplaced : Bool := false

abbrev SaveCalls := Calls SaveLocals Name

/-- A save stops at its first failure. -/
abbrev SaveM := ExceptT SettingsStoreFailure SaveCalls

def readLocals : SaveCalls SaveLocals := do
  let process ← Prog.memory
  pure process.locals

def updateLocals (change : SaveLocals → SaveLocals) : SaveCalls Unit :=
  Prog.update fun process => { process with locals := change process.locals }

def closeDescriptor : SaveCalls (Except ℕ Unit) := inert

def cleanupBeforeReplace : SaveCalls Unit := do
  let locals ← readLocals
  if locals.temporaryOpen then
    let _ ← closeDescriptor
    updateLocals fun locals => { locals with temporaryOpen := false }
  let _ ← unlink Name.temporary
  let _ ← closeDescriptor

def closeDirectory : SaveCalls Unit := do
  let _ ← closeDescriptor

/-- A step that ends the save when it fails; `replaced` is what the failure says
of the file. -/
def attempt (error : SettingsStoreError) (replaced : Bool) (cleanup : SaveCalls Unit)
    (step : SaveCalls (Except ℕ Unit)) : SaveM Unit := do
  let result ← step
  match result with
  | .ok () => pure ()
  | .error errno =>
    cleanup
    throw { error := error, systemError := errno, finalReplaced := replaced }

/-- A point where a test can make the save fail. -/
def AtomicSettingsStore.passes (store : AtomicSettingsStore) (point : AtomicSettingsWritePoint) :
    SaveM Unit := do
  if store.failpoint point then
    let locals ← readLocals
    if locals.finalReplaced then closeDirectory else cleanupBeforeReplace
    throw
      { error := .injectedFailure, writePoint := some point
        finalReplaced := locals.finalReplaced }

/-- A temporary file that is not there need not be removed. -/
def removeStaleTemporary : SaveCalls (Except ℕ Unit) := do
  match ← unlink Name.temporary with
  | .ok () => pure (.ok ())
  | .error errno => if errno = eNoEnt then pure (.ok ()) else pure (.error errno)

/-- The loop around `write`; `data` is what is still to be written. -/
def writeLoop : (turns : ℕ) → (data : Bytes) → SaveCalls (Except ℕ Unit)
  | _, [] => pure (.ok ())
  | 0, _ => pure (.error eIo)
  | turns + 1, data => do
    match ← write Name.temporary data with
    | .ok count => if count = 0 then pure (.error eIo) else writeLoop turns (data.drop count)
    | .error errno => if errno = eIntr then writeLoop turns data else pure (.error errno)

/-- A turn of the loop takes a reply, and without replies everything is written. -/
def writeAll (data : Bytes) : SaveCalls (Except ℕ Unit) := do
  let process ← Prog.memory
  writeLoop (process.replies.length + 1) data

/-- From the open directory to the closed temporary file. -/
def AtomicSettingsStore.prepare (store : AtomicSettingsStore) (contents : Bytes) : SaveM Unit := do
  store.passes .parentDirectoryOpened
  store.passes .beforeTemporaryOpen
  attempt .removeStaleTemporaryFailed false cleanupBeforeReplace removeStaleTemporary
  attempt .openTemporaryFailed false cleanupBeforeReplace (create Name.temporary)
  updateLocals fun locals => { locals with temporaryOpen := true }
  attempt .setTemporaryPermissionsFailed false cleanupBeforeReplace inert
  store.passes .temporaryOpened
  store.passes .beforeWrite
  attempt .writeTemporaryFailed false cleanupBeforeReplace (writeAll contents)
  store.passes .temporaryWritten
  store.passes .beforeFileSync
  attempt .syncTemporaryFailed false cleanupBeforeReplace (retryInterrupted (sync Name.temporary))
  store.passes .temporarySynced
  store.passes .beforeTemporaryClose
  updateLocals fun locals => { locals with temporaryOpen := false }
  attempt .closeTemporaryFailed false cleanupBeforeReplace closeDescriptor
  store.passes .temporaryClosed
  store.passes .beforeRename

/-- From the rename to the closed directory. -/
def AtomicSettingsStore.replace (store : AtomicSettingsStore) : SaveM Unit := do
  attempt .renameFailed false cleanupBeforeReplace
    (retryInterrupted (rename Name.temporary Name.final))
  updateLocals fun locals => { locals with finalReplaced := true }
  store.passes .finalReplaced
  store.passes .beforeDirectorySync
  attempt .syncDirectoryFailed true closeDirectory (retryInterrupted syncDirectory)
  store.passes .directorySynced
  attempt .closeDirectoryFailed true (pure ()) closeDescriptor

def AtomicSettingsStore.save (store : AtomicSettingsStore) (settings : SettingsRecord) :
    SaveM Unit :=
  if !store.validPath then throw { error := .invalidPath, systemError := eInval }
  else
    match serializeSettingsJson settings with
    | .error error => throw { error := .encodeFailed, jsonError := some error }
    | .ok contents => do
      attempt .createDirectoryFailed false (pure ()) makeDirectories
      attempt .openDirectoryFailed false (pure ()) openDirectory
      store.prepare contents
      store.replace

/-! ### What a save leaves -/

section Specification

/-- A synced file with the given contents. -/
def stored (contents : Bytes) : Node := .regular ⟨contents, true⟩

variable (old : Option Bytes) (older : List (Option Bytes)) (new : Bytes)

/-- The settings file is this text, or there is none; a loss of power may bring
back one of the earlier ones. -/
structure Stands (text : Option Bytes) (earlier : List (Option Bytes)) (volume : Volume Name) :
    Prop where
  current : volume.directory ≠ .missing → (volume.entries .final).current = text.map stored
  unsynced : volume.directory ≠ .missing → ∀ node ∈ (volume.entries .final).earlier,
    ∃ other ∈ earlier, node = other.map stored
  absent : volume.directory = .missing → text = none
  unsettled : volume.directory ≠ .settled → none ∈ text :: earlier

/-- What a save may leave when it is cut short. -/
def Cut (volume : Volume Name) : Prop :=
  Stands old older volume ∨ Stands (some new) (old :: older) volume

/-- A step of a save ends with `next`, or with a failure that tells what it left. -/
def Reaches (next : Machine (Process SaveLocals) (Volume Name) → Prop) :
    Except SettingsStoreFailure Unit → Machine (Process SaveLocals) (Volume Name) → Prop
  | .ok (), m => next m
  | .error failure, m =>
    Cut old older new m.durable ∧ (failure.finalReplaced = false → Stands old older m.durable)

/-- A call ends with `next`, or it fails and the settings file is as it was. -/
def Attempted (next : Machine (Process SaveLocals) (Volume Name) → Prop) :
    Except ℕ Unit → Machine (Process SaveLocals) (Volume Name) → Prop
  | .ok (), m => next m
  | .error _, m => Stands old older m.durable

/-- The temporary file is being written. -/
structure Preparing (temporary : Entry → Prop)
    (m : Machine (Process SaveLocals) (Volume Name)) : Prop where
  before : Stands old older m.durable
  present : m.durable.directory ≠ .missing
  flag : m.memory.locals.finalReplaced = false
  file : temporary (m.durable.entries .temporary)

/-- The file has been replaced. -/
structure Replacing (earlier : List (Option Bytes))
    (m : Machine (Process SaveLocals) (Volume Name)) : Prop where
  replaced : Stands (some new) earlier m.durable
  flag : m.memory.locals.finalReplaced = true

variable {old older new} {m : Machine (Process SaveLocals) (Volume Name)}
  {volume volume' : Volume Name}

theorem Stands.congr (h : Stands old older volume)
    (hdirectory : volume'.directory = volume.directory)
    (hentry : volume'.entries .final = volume.entries .final) : Stands old older volume' := by
  obtain ⟨current, unsynced, absent, unsettled⟩ := h
  rw [← hdirectory] at current unsynced absent unsettled
  rw [← hentry] at current unsynced
  exact ⟨current, unsynced, absent, unsettled⟩

/-- What is stored for good stands whatever else could have come back. -/
theorem Stands.weaken (h : Stands old [] volume) : Stands old older volume := by
  refine ⟨h.current, fun hpresent node hnode => ?_, h.absent, fun hunsettled => ?_⟩
  · obtain ⟨other, hother, -⟩ := h.unsynced hpresent node hnode
    cases hother
  · rw [← List.mem_singleton.mp (h.unsettled hunsettled)]
    exact List.mem_cons_self ..

theorem Stands.present {text : Bytes} (h : Stands (some text) older volume) :
    volume.directory ≠ .missing := fun hmissing => by cases h.absent hmissing

theorem wp_inert {post : Except ℕ Unit → Machine (Process SaveLocals) (Volume Name) → Prop}
    {crash : Volume Name → Prop}
    (h : ∀ result rest, post result { m with memory := { m.memory with replies := rest } })
    (hcrash : crash m.durable) : wp (inert : SaveCalls _) post crash m := by
  refine wp_call ?_ (fun errno rest => h _ rest) hcrash
  intro volume rest hvolume
  cases hvolume
  exact h _ rest

/-- Removing the temporary file touches nothing else. -/
theorem wp_unlink {post : Except ℕ Unit → Machine (Process SaveLocals) (Volume Name) → Prop}
    {crash : Volume Name → Prop}
    (hdone : ∀ rest, m.durable.find .temporary ≠ none → post (.ok ())
      { m with
        memory := { m.memory with replies := rest }
        durable := m.durable.set .temporary none })
    (hfailed : ∀ errno rest,
      post (.error errno) { m with memory := { m.memory with replies := rest } })
    (hcrash : crash m.durable) : wp (unlink Name.temporary : SaveCalls _) post crash m := by
  refine wp_call ?_ hfailed hcrash
  intro volume rest hvolume
  cases hfind : m.durable.find .temporary with
  | none => simp [hfind] at hvolume
  | some node =>
    simp only [hfind, Except.ok.injEq] at hvolume
    rw [← hvolume]
    exact hdone rest (by simp [hfind])

/-- Cleaning up touches the temporary file only. -/
theorem wp_cleanupBeforeReplace (m : Machine (Process SaveLocals) (Volume Name))
    (h : Stands old older m.durable) :
    wp cleanupBeforeReplace (fun _ m' => Stands old older m'.durable) (Stands old older) m := by
  have hunlink (m : Machine (Process SaveLocals) (Volume Name)) (h : Stands old older m.durable) :
      wp (unlink Name.temporary >>= fun _ => closeDescriptor >>= fun _ => pure PUnit.unit)
        (fun _ m' => Stands old older m'.durable) (Stands old older) m := by
    rw [wp_bind]
    refine wp_unlink ?_ ?_ h
    · intro rest _
      have hset : Stands old older (m.durable.set .temporary none) :=
        h.congr rfl (Volume.set_entries_other (by decide) _)
      rw [wp_bind]
      exact wp_inert (fun _ _ => hset) hset
    · intro errno rest
      rw [wp_bind]
      exact wp_inert (fun _ _ => h) h
  unfold cleanupBeforeReplace readLocals
  simp only [wp_bind, wp_memory, wp_pure]
  split
  · rw [wp_bind]
    refine wp_inert (fun _ rest => ?_) h
    exact hunlink _ h
  · exact hunlink _ h

/-- A step before the rename: whatever happens, the settings file is as it was. -/
theorem wp_attempt {error : SettingsStoreError} {cleanup : SaveCalls Unit}
    {step : SaveCalls (Except ℕ Unit)} {next : Machine (Process SaveLocals) (Volume Name) → Prop}
    (hstep : wp step (Attempted old older next) (Stands old older) m)
    (hcleanup : ∀ m', Stands old older m'.durable →
      wp cleanup (fun _ m'' => Stands old older m''.durable) (Stands old older) m') :
    wp (attempt error false cleanup step).run (Reaches old older new next)
      (Cut old older new) m := by
  unfold attempt
  rw [wp_run_bind, wp_run_lift]
  refine wp_mono hstep ?_ fun _ h => .inl h
  rintro (errno | ⟨⟩) m' hresult
  · dsimp only
    rw [wp_run_bind, wp_run_lift]
    refine wp_mono (hcleanup m' hresult) ?_ fun _ h => .inl h
    intro _ m'' h
    exact ⟨.inl h, fun _ => h⟩
  · exact hresult

theorem wp_passes (store : AtomicSettingsStore) (point : AtomicSettingsWritePoint)
    {temporary : Entry → Prop} (h : Preparing old older temporary m) :
    wp (store.passes point).run (Reaches old older new (Preparing old older temporary))
      (Cut old older new) m := by
  unfold AtomicSettingsStore.passes readLocals
  split
  · simp only [wp_run_bind, wp_run_lift, wp_bind, wp_memory, wp_pure, h.flag, Bool.false_eq_true,
      if_false]
    refine wp_mono (wp_cleanupBeforeReplace m h.before) ?_ fun _ h => .inl h
    intro _ m' hbefore
    exact ⟨.inl hbefore, fun _ => hbefore⟩
  · exact h

/-- Once the file is replaced, a point that fails says so. -/
theorem wp_passes_replaced (store : AtomicSettingsStore) (point : AtomicSettingsWritePoint)
    {earlier : List (Option Bytes)}
    (hcut : ∀ volume, Stands (some new) earlier volume → Cut old older new volume)
    (h : Replacing new earlier m) :
    wp (store.passes point).run (Reaches old older new (Replacing new earlier))
      (Cut old older new) m := by
  unfold AtomicSettingsStore.passes readLocals closeDirectory
  split
  · simp only [wp_run_bind, wp_run_lift, wp_bind, wp_memory, wp_pure, h.flag, if_true]
    refine wp_inert (fun _ rest => ?_) (hcut _ h.replaced)
    exact ⟨hcut _ h.replaced, by simp⟩
  · exact h

theorem wp_attempt_replaced {error : SettingsStoreError} {cleanup : SaveCalls Unit}
    {step : SaveCalls (Except ℕ Unit)} {next : Machine (Process SaveLocals) (Volume Name) → Prop}
    (hstep : wp step (fun result m' => Cut old older new m'.durable ∧ (result = .ok () → next m'))
      (Cut old older new) m)
    (hcleanup : ∀ m', Cut old older new m'.durable →
      wp cleanup (fun _ m'' => Cut old older new m''.durable) (Cut old older new) m') :
    wp (attempt error true cleanup step).run (Reaches old older new next)
      (Cut old older new) m := by
  unfold attempt
  rw [wp_run_bind, wp_run_lift]
  refine wp_mono hstep ?_ fun _ h => h
  rintro (errno | ⟨⟩) m' ⟨hcut, hnext⟩
  · dsimp only
    rw [wp_run_bind, wp_run_lift]
    refine wp_mono (hcleanup m' hcut) ?_ fun _ h => h
    intro _ m'' h
    exact ⟨h, by simp⟩
  · exact hnext rfl

/-- Steps follow each other. -/
theorem wp_then {program next : SaveM Unit}
    {middle last : Machine (Process SaveLocals) (Volume Name) → Prop}
    (hprogram : wp program.run (Reaches old older new middle) (Cut old older new) m)
    (hnext : ∀ m', middle m' →
      wp next.run (Reaches old older new last) (Cut old older new) m') :
    wp (program >>= fun _ => next).run (Reaches old older new last) (Cut old older new) m := by
  rw [wp_run_bind]
  refine wp_mono hprogram ?_ fun _ h => h
  rintro (failure | ⟨⟩) m' h
  · exact h
  · exact hnext m' h

theorem wp_update_then {change : SaveLocals → SaveLocals} {next : SaveM Unit}
    {last : Machine (Process SaveLocals) (Volume Name) → Prop}
    (hnext : wp next.run (Reaches old older new last) (Cut old older new)
      { m with memory := { m.memory with locals := change m.memory.locals } }) :
    wp ((liftM (updateLocals change) : SaveM Unit) >>= fun _ => next).run
      (Reaches old older new last) (Cut old older new) m := by
  rw [wp_run_bind, wp_run_lift, updateLocals, wp_update]
  exact hnext

/-- The new text in a file that is not yet synced. -/
def Written (contents : Bytes) (entry : Entry) : Prop :=
  ∃ synced earlier, entry = ⟨some (.regular ⟨contents, synced⟩), earlier⟩

def Synced (contents : Bytes) (entry : Entry) : Prop :=
  ∃ earlier, entry = ⟨some (stored contents), earlier⟩

theorem Stands.modify (h : Stands old older volume) (change : File → File) :
    Stands old older (volume.modify .temporary change) :=
  h.congr rfl (Volume.modify_entries_other (by decide) _)

theorem wp_writeLoop {written data : Bytes} {turns : ℕ}
    (h : Preparing old older (Written written) m) :
    wp (writeLoop turns data)
      (Attempted old older (Preparing old older (Written (written ++ data))))
        (Stands old older) m := by
  -- Each turn writes at least one byte or is interrupted; the text so far is `written`.
  induction turns generalizing data written m with
  | zero =>
    rcases data with _ | ⟨byte, data⟩
    · simpa [writeLoop, Attempted] using h
    · exact h.before
  | succ turns ih =>
    rcases data with _ | ⟨byte, data⟩
    · simpa [writeLoop, Attempted] using h
    rw [writeLoop, wp_bind]
    · refine wp_write ?_ ?_ h.before
      · intro count rest hcount
        by_cases hzero : count = 0
        · simp only [hzero, if_true, wp_pure]
          exact h.before.modify _
        · simp only [hzero, if_false]
          obtain ⟨synced, earlier, hentry⟩ := h.file
          have hnext : Preparing old older (Written (written ++ (byte :: data).take count))
              { m with
                memory := { m.memory with replies := rest }
                durable := m.durable.modify .temporary fun file =>
                  ⟨file.contents ++ (byte :: data).take count, false⟩ } :=
            ⟨h.before.modify _, h.present, h.flag, false, earlier,
              Volume.modify_entries_same hentry _⟩
          have hsplit : written ++ byte :: data =
              written ++ (byte :: data).take count ++ (byte :: data).drop count := by
            rw [List.append_assoc, List.take_append_drop]
          rw [hsplit]
          exact ih hnext
      · intro errno rest
        by_cases hinterrupted : errno = eIntr
        · simp only [hinterrupted, if_true]
          exact ih (m := { m with memory := { m.memory with replies := rest } })
            ⟨h.before, h.present, h.flag, h.file⟩
        · simp only [hinterrupted, if_false, wp_pure]
          exact h.before
    · simp

theorem wp_writeAll {contents : Bytes} (h : Preparing old older (Written []) m) :
    wp (writeAll contents)
      (Attempted old older (Preparing old older (Written contents)))
        (Stands old older) m := by
  unfold writeAll
  rw [wp_bind]
  exact wp_writeLoop h

theorem wp_removeStaleTemporary (h : Preparing old older (fun _ => True) m) :
    wp removeStaleTemporary
      (Attempted old older (Preparing old older (fun _ => True))) (Stands old older) m := by
  unfold removeStaleTemporary
  rw [wp_bind]
  refine wp_unlink ?_ ?_ h.before
  · intro rest _
    have hset : Stands old older (m.durable.set .temporary none) :=
      h.before.congr rfl (Volume.set_entries_other (by decide) _)
    exact ⟨hset, h.present, h.flag, trivial⟩
  · intro errno rest
    by_cases hmissing : errno = eNoEnt
    · simp only [hmissing, if_true, wp_pure]
      exact ⟨h.before, h.present, h.flag, trivial⟩
    · simp only [hmissing, if_false, wp_pure]
      exact h.before

theorem wp_create (h : Preparing old older (fun _ => True) m) :
    wp (create Name.temporary : SaveCalls _)
      (Attempted old older (Preparing old older (Written []))) (Stands old older) m := by
  refine wp_call ?_ (fun _ _ => h.before) h.before
  intro volume rest hvolume
  cases hfind : m.durable.find .temporary with
  | some node => simp [hfind] at hvolume
  | none =>
    simp only [hfind, Except.ok.injEq] at hvolume
    rw [← hvolume]
    have hset : Stands old older
        (m.durable.set .temporary (some (.regular ⟨[], false⟩))) :=
      h.before.congr rfl (Volume.set_entries_other (by decide) _)
    exact ⟨hset, h.present, h.flag, false, _, Volume.set_entries_same _⟩

theorem wp_inert_preparing {temporary : Entry → Prop} (h : Preparing old older temporary m) :
    wp (inert : SaveCalls _)
      (Attempted old older (Preparing old older temporary)) (Stands old older) m :=
  wp_inert (fun result _ =>
    match result with
    | .ok () => ⟨h.before, h.present, h.flag, h.file⟩
    | .error _ => h.before) h.before

theorem wp_sync {contents : Bytes} (h : Preparing old older (Written contents) m) :
    wp (retryInterrupted (sync Name.temporary) : SaveCalls _)
      (Attempted old older (Preparing old older (Synced contents))) (Stands old older) m := by
  refine wp_retryInterrupted h fun m h => ?_
  refine wp_call ?_ ?_ h.before
  · intro volume rest hvolume
    obtain ⟨synced, earlier, hentry⟩ := h.file
    cases hvolume
    refine ⟨⟨h.before.modify _, h.present, h.flag, earlier, ?_⟩, by simp⟩
    exact Volume.modify_entries_same hentry _
  · intro errno rest
    exact ⟨h.before, fun _ => ⟨h.before, h.present, h.flag, h.file⟩⟩

/-- Everything up to the rename leaves the settings file as it was. -/
theorem wp_prepare (store : AtomicSettingsStore) (contents : Bytes)
    (h : Preparing old older (fun _ => True) m) :
    wp (store.prepare contents).run
      (Reaches old older new (Preparing old older (Synced contents)))
      (Cut old older new) m := by
  unfold AtomicSettingsStore.prepare
  refine wp_then (wp_passes store _ h) fun m h => ?_
  refine wp_then (wp_passes store _ h) fun m h => ?_
  refine wp_then (wp_attempt (wp_removeStaleTemporary h) wp_cleanupBeforeReplace) fun m h => ?_
  refine wp_then (wp_attempt (wp_create h) wp_cleanupBeforeReplace) fun m h => ?_
  refine wp_update_then ?_
  -- Only the write and the sync say something about the text; the checks between them do not.
  refine wp_then (wp_attempt (wp_inert_preparing ⟨h.before, h.present, h.flag, h.file⟩)
    wp_cleanupBeforeReplace)
    fun m h => ?_
  refine wp_then (wp_passes store _ h) fun m h => ?_
  refine wp_then (wp_passes store _ h) fun m h => ?_
  refine wp_then (wp_attempt (wp_writeAll h) wp_cleanupBeforeReplace) fun m h => ?_
  refine wp_then (wp_passes store _ h) fun m h => ?_
  refine wp_then (wp_passes store _ h) fun m h => ?_
  refine wp_then (wp_attempt (wp_sync h) wp_cleanupBeforeReplace) fun m h => ?_
  refine wp_then (wp_passes store _ h) fun m h => ?_
  refine wp_then (wp_passes store _ h) fun m h => ?_
  refine wp_update_then ?_
  refine wp_then (wp_attempt (wp_inert_preparing ⟨h.before, h.present, h.flag, h.file⟩)
    wp_cleanupBeforeReplace)
    fun m h => ?_
  refine wp_then (wp_passes store _ h) fun m h => ?_
  exact wp_passes store _ h

/-- The rename puts the synced text in the place of the settings file. -/
theorem wp_rename (h : Preparing old older (Synced new) m) :
    wp (retryInterrupted (rename Name.temporary Name.final) : SaveCalls _)
      (Attempted old older fun m' => Stands (some new) (old :: older) m'.durable)
      (Stands old older) m := by
  refine wp_retryInterrupted h fun m h => ?_
  refine wp_call ?_ ?_ h.before
  · intro volume rest hvolume
    obtain ⟨earlier, hentry⟩ := h.file
    have hfind : m.durable.find .temporary = some (stored new) := by
      rw [Volume.find, if_neg h.present, hentry]
    simp only [hfind, Except.ok.injEq] at hvolume
    rw [← hvolume]
    have hfinal : (((m.durable.set .final (some (stored new))).set .temporary none).entries
        .final) = (m.durable.entries .final).replace (some (stored new)) := by
      rw [Volume.set_entries_other (by decide), Volume.set_entries_same]
    refine ⟨⟨fun _ => ?_, fun _ node hnode => ?_, fun hmissing => absurd hmissing h.present,
      fun hunsettled => List.mem_cons_of_mem _ (h.before.unsettled hunsettled)⟩, by simp⟩
    · rw [hfinal]
      rfl
    · rw [hfinal, Entry.replace] at hnode
      rcases List.mem_cons.mp hnode with rfl | hnode
      · exact ⟨old, List.mem_cons_self .., h.before.current h.present⟩
      · obtain ⟨other, hother, rfl⟩ := h.before.unsynced h.present node hnode
        exact ⟨other, List.mem_cons_of_mem _ hother, rfl⟩
  · intro errno rest
    exact ⟨h.before, fun _ => ⟨h.before, h.present, h.flag, h.file⟩⟩

theorem wp_syncDirectory (h : Replacing new (old :: older) m) :
    wp (retryInterrupted syncDirectory : SaveCalls _)
      (fun result m' => Cut old older new m'.durable ∧
        (result = .ok () → Replacing new [] m'))
      (Cut old older new) m := by
  refine wp_retryInterrupted h fun m h => ?_
  refine wp_call ?_ ?_ (.inr h.replaced)
  · intro volume rest hvolume
    have hpresent := h.replaced.present
    simp only [hpresent, if_false, Except.ok.injEq] at hvolume
    rw [← hvolume]
    have hreplaced : Stands (some new) []
        ⟨.settled, fun name => { m.durable.entries name with earlier := [] }⟩ := by
      refine ⟨fun _ => h.replaced.current hpresent, fun _ => List.forall_mem_nil _, ?_,
        fun hunsettled => absurd rfl hunsettled⟩
      rintro ⟨⟩
    exact ⟨⟨.inr hreplaced.weaken, fun _ => ⟨hreplaced, h.flag⟩⟩, by simp⟩
  · intro errno rest
    exact ⟨⟨.inr h.replaced, by simp⟩, fun _ => ⟨h.replaced, h.flag⟩⟩

theorem wp_replace (store : AtomicSettingsStore) (h : Preparing old older (Synced new) m) :
    wp store.replace.run
      (Reaches old older new fun m' => Stands (some new) [] m'.durable)
      (Cut old older new) m := by
  have hopen : ∀ volume, Stands (some new) (old :: older) volume →
      Cut old older new volume := fun _ h => .inr h
  have hsettled : ∀ volume, Stands (some new) [] volume → Cut old older new volume :=
    fun _ h => .inr h.weaken
  have hclose (m : Machine (Process SaveLocals) (Volume Name)) (h : Cut old older new m.durable) :
      wp closeDirectory (fun _ m' => Cut old older new m'.durable) (Cut old older new) m := by
    unfold closeDirectory
    rw [wp_bind]
    exact wp_inert (fun _ _ => h) h
  unfold AtomicSettingsStore.replace
  refine wp_then (wp_attempt (wp_rename h) wp_cleanupBeforeReplace) fun m h => ?_
  refine wp_update_then ?_
  refine wp_then (wp_passes_replaced store _ hopen ⟨h, rfl⟩) fun m h => ?_
  refine wp_then (wp_passes_replaced store _ hopen h) fun m h => ?_
  refine wp_then (wp_attempt_replaced (wp_syncDirectory h) hclose) fun m h => ?_
  refine wp_then (wp_passes_replaced store _ hsettled h) fun m h => ?_
  refine wp_attempt_replaced ?_ fun _ h => h
  exact wp_inert (fun _ _ => ⟨hsettled _ h.replaced, fun _ => h.replaced⟩) (hsettled _ h.replaced)

theorem wp_makeDirectories (h : Stands old older m.durable)
    (hflag : m.memory.locals.finalReplaced = false) :
    wp (makeDirectories : SaveCalls _)
      (Attempted old older (Preparing old older fun _ => True)) (Stands old older) m := by
  refine wp_call ?_ (fun _ _ => h) h
  intro volume rest hvolume
  by_cases hmissing : m.durable.directory = .missing
  · -- A directory that was missing held no settings.
    obtain rfl := h.absent hmissing
    simp only [hmissing, if_true, Except.ok.injEq] at hvolume
    rw [← hvolume]
    refine ⟨⟨fun _ => rfl, fun _ => List.forall_mem_nil _, fun _ => rfl,
      fun _ => List.mem_cons_self ..⟩, by simp, hflag, trivial⟩
  · simp only [hmissing, if_false, Except.ok.injEq] at hvolume
    rw [← hvolume]
    exact ⟨h, hmissing, hflag, trivial⟩

theorem wp_openDirectory (h : Preparing old older (fun _ => True) m) :
    wp (openDirectory : SaveCalls _)
      (Attempted old older (Preparing old older fun _ => True)) (Stands old older) m := by
  refine wp_call ?_ (fun _ _ => h.before) h.before
  intro volume rest hvolume
  simp only [h.present, if_false, Except.ok.injEq] at hvolume
  rw [← hvolume]
  exact ⟨h.before, h.present, h.flag, trivial⟩

/-- What every run of `save` leaves. -/
theorem wp_save (store : AtomicSettingsStore) {settings : SettingsRecord}
    (hzero : settings.generation ≠ 0) (hrange : settings.generation < 2 ^ 64)
    (h : Stands old older m.durable) (hflag : m.memory.locals.finalReplaced = false) :
    wp (store.save settings).run
      (Reaches old older (settingsText settings) fun m' =>
        Stands (some (settingsText settings)) [] m'.durable)
      (Cut old older (settingsText settings)) m := by
  have hpure (m : Machine (Process SaveLocals) (Volume Name)) (h : Stands old older m.durable) :
      wp (pure () : SaveCalls Unit) (fun _ m' => Stands old older m'.durable)
        (Stands old older) m := h
  unfold AtomicSettingsStore.save
  split
  · exact ⟨.inl h, fun _ => h⟩
  simp only [serializeSettingsJson_eq hzero hrange]
  refine wp_then (wp_attempt (wp_makeDirectories h hflag) hpure) fun m h => ?_
  refine wp_then (wp_attempt (wp_openDirectory h) hpure) fun m h => ?_
  refine wp_then (wp_prepare store _ h) fun m h => ?_
  exact wp_replace store h

end Specification

end Lora.AtomicSettings
