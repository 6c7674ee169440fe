/-
The two stores.

The settings file is replaced atomically: the new contents are written beside
it and renamed over it.  A save that fails after the rename says so, since the
outcome is then open.  The history is a database, and a snapshot replaces all
of it in one transaction.

A `Disk` is what a restart finds.  Rows that cannot be read make a database
`damaged`, and so does a creation that was cut short; `blank` is a database
without metadata, `leftover` one of which only auxiliary files remain.

* `wp_saveSettings`, `wp_saveSnapshot` — what a save can do.
-/
import LoraMessenger.Crash
import LoraMessenger.History

namespace Lora

open Crash

inductive SettingsFile where
  | missing
  | damaged
  | stored (record : SettingsRecord)
deriving DecidableEq

inductive HistoryFile where
  | missing
  | leftover
  | damaged
  | blank
  | stored (history : StoredHistory)
deriving DecidableEq

structure Disk where
  settings : SettingsFile
  history : HistoryFile
deriving DecidableEq

inductive SettingsStoreError where
  | notFound
  | readSettingsFailed
  | decodeFailed
  | encodeFailed
  | writeFailed
deriving DecidableEq

structure SettingsStoreFailure where
  error : SettingsStoreError
  finalReplaced : Bool := false
deriving DecidableEq

variable {μ : Type}

/-! ### The settings -/

/-- Only a rename that has reached the disk replaces the file. -/
def replaceSettings (record : SettingsRecord) : Progress → Disk → Disk
  | .complete, disk => { disk with settings := .stored record }
  | _, disk => disk

def saveSettings (record : SettingsRecord) : Prog μ Disk (Except SettingsStoreFailure Unit) := do
  if record.generation = 0 then pure (.error { error := .encodeFailed })
  else
    match ← Prog.write (replaceSettings record) with
    | .done => pure (.ok ())
    | .failed progress =>
      pure (.error { error := .writeFailed, finalReplaced := progress ≠ .untouched })

def loadSettings : Prog μ Disk (Except SettingsStoreFailure SettingsRecord) := do
  match ← Prog.read with
  | none => pure (.error { error := .readSettingsFailed })
  | some disk =>
    match disk.settings with
    | .missing => pure (.error { error := .notFound })
    | .damaged => pure (.error { error := .decodeFailed })
    | .stored record =>
      if record.generation = 0 then pure (.error { error := .decodeFailed }) else pure (.ok record)

/-- `unlink` of the settings file and a sync of its directory. -/
def unlinkSettings : Prog μ Disk Bool := do
  match ← Prog.write (fun
    | .complete, disk => { disk with settings := .missing }
    | _, disk => disk) with
  | .done => pure true
  | .failed _ => pure false

/-! ### The history -/

def discardHistoryProbe : Prog μ Disk Bool := do
  match ← Prog.read with
  | none => pure false
  | some _ => pure true

/-- A file whose state cannot be told counts as present. -/
def hasHistoryArtifact : Prog μ Disk Bool := do
  match ← Prog.read with
  | none => pure true
  | some disk => pure (disk.history ≠ .missing)

def createDatabase : Progress → Disk → Disk
  | .untouched, disk => disk
  | .partly, disk => { disk with history := .damaged }
  | .complete, disk => { disk with history := .blank }

/-- `SqliteHistoryStore::open`. -/
def openHistory : Prog μ Disk Bool := do
  match ← Prog.read with
  | none => pure false
  | some disk =>
    match disk.history with
    | .missing =>
      match ← Prog.write createDatabase with
      | .done => pure true
      | .failed _ => pure false
    | .blank => pure true
    | .stored _ => pure true
    | _ => pure false

/-- `SqliteHistoryStore::open_existing_bound`: the rows and the identity are
checked before anything is opened for writing. -/
def openExistingBound (identity : Identity) : Prog μ Disk HistoryError := do
  match ← Prog.read with
  | none => pure .readFailed
  | some disk =>
    match disk.history with
    | .stored history =>
      if !history.identityMatches identity then pure .identityMismatch
      else match history.readSnapshot identity with
        | .error error => pure error
        | .ok _ => pure .none
    | .blank => pure .invalidData
    | _ => pure .openFailed

/-- The transaction of `write_snapshot`. -/
def replaceHistory (snapshot : HistorySnapshot) (identity : Identity) : Progress → Disk → Disk
  | .complete, disk =>
    { disk with history := .stored ⟨identity.installId.uuid, true, snapshot⟩ }
  | _, disk => disk

/-- The checks of `write_snapshot` against what is stored. -/
def HistoryFile.admits (file : HistoryFile) (snapshot : HistorySnapshot) (identity : Identity) :
    HistoryError :=
  match file with
  | .stored history => history.admits snapshot identity
  | .blank => .none
  | _ => .readFailed

def saveSnapshot (snapshot : HistorySnapshot) (identity : Identity) : Prog μ Disk HistoryError := do
  match reconcileSnapshotDedupe snapshot with
  | .error error => pure error
  | .ok candidate =>
    if validateSnapshot candidate identity ≠ .none then pure (validateSnapshot candidate identity)
    else
      match ← Prog.read with
      | none => pure .readFailed
      | some disk =>
        if disk.history.admits candidate identity ≠ .none then
          pure (disk.history.admits candidate identity)
        else
          match ← Prog.write (replaceHistory candidate identity) with
          | .done => pure .none
          | .failed _ => pure .writeFailed

/-- A database from before the ledger has its ledger seeded. -/
def loadSnapshot (identity : Identity) : Prog μ Disk (Except HistoryError HistorySnapshot) := do
  match ← Prog.read with
  | none => pure (.error .readFailed)
  | some disk =>
    match disk.history with
    | .blank => pure (.ok {})
    | .stored history =>
      if !history.identityMatches identity then pure (.error .identityMismatch)
      else match history.readSnapshot identity with
        | .error error => pure (.error error)
        | .ok snapshot =>
          if history.dedupeInitialized then pure (.ok snapshot)
          else match reconcileSnapshotDedupe snapshot with
            | .error error => pure (.error error)
            | .ok migrated => do
              let saved ← saveSnapshot migrated identity
              if saved ≠ .none then pure (.error saved) else pure (.ok migrated)
    | _ => pure (.error .readFailed)

/-- `unlink` of the database and its auxiliary files and a sync of their
directory.  What is left of a database deleted in part is never read: the
settings are gone by then. -/
def unlinkHistory : Prog μ Disk Bool := do
  match ← Prog.write (fun
    | .untouched, disk => disk
    | .partly, disk => { disk with history := .damaged }
    | .complete, disk => { disk with history := .missing }) with
  | .done => pure true
  | .failed _ => pure false

/-! ### What the operations can do -/

section Wp

variable {m : Machine μ Disk} {crash : Disk → Prop}

/-- A failed save whose outcome is known has left the old settings. -/
theorem wp_saveSettings {record : SettingsRecord} (hgeneration : record.generation ≠ 0)
    {post : Except SettingsStoreFailure Unit → Machine μ Disk → Prop}
    (hdone : ∀ rest, (m.faults = [] → rest = []) → post (.ok ())
      { m with durable := { m.durable with settings := .stored record }, faults := rest })
    (hfailed : ∀ failure disk rest, m.faults ≠ [] →
      (disk = m.durable ∨
        (failure.finalReplaced ∧ disk = { m.durable with settings := .stored record })) →
      post (.error failure) { m with durable := disk, faults := rest })
    (hcrash : ∀ disk, m.faults ≠ [] →
      (disk = m.durable ∨ disk = { m.durable with settings := .stored record }) → crash disk) :
    wp (saveSettings record) post crash m := by
  unfold saveSettings
  rw [if_neg hgeneration, wp_bind]
  refine wp_write _ hdone ?_ ?_
  · intro progress rest hfaults
    rcases progress with _ | _ | _
    · exact hfailed _ _ _ hfaults (.inl rfl)
    · exact hfailed _ _ _ hfaults (.inl rfl)
    · exact hfailed _ _ _ hfaults (.inr ⟨rfl, rfl⟩)
  · intro progress hfaults
    rcases progress with _ | _ | _
    · exact hcrash _ hfaults (.inl rfl)
    · exact hcrash _ hfaults (.inl rfl)
    · exact hcrash _ hfaults (.inr rfl)

theorem wp_saveSnapshot {window : MessageDedupeWindow} {snapshot : HistorySnapshot}
    {identity : Identity} (hvalid : SnapshotValid window snapshot identity)
    (hadmits : m.durable.history.admits snapshot identity = .none)
    {post : HistoryError → Machine μ Disk → Prop}
    (hdone : ∀ rest, (m.faults = [] → rest = []) → post .none
      { m with
        durable := { m.durable with history := .stored ⟨identity.installId.uuid, true, snapshot⟩ }
        faults := rest })
    (hfailed : ∀ error disk rest, error ≠ .none → m.faults ≠ [] →
      (disk = m.durable ∨ disk =
        { m.durable with history := .stored ⟨identity.installId.uuid, true, snapshot⟩ }) →
      post error { m with durable := disk, faults := rest })
    (hcrash : ∀ disk, m.faults ≠ [] →
      (disk = m.durable ∨ disk =
        { m.durable with history := .stored ⟨identity.installId.uuid, true, snapshot⟩ }) →
      crash disk) :
    wp (saveSnapshot snapshot identity) post crash m := by
  have hchecks : validateSnapshot snapshot identity = .none :=
    validateSnapshot_eq_none.mpr ⟨window, hvalid⟩
  unfold saveSnapshot
  simp only [reconcile_of_valid hvalid, hchecks, ne_eq, not_true_eq_false, if_false, wp_bind]
  refine wp_read ?_ ?_ ?_
  · intro rest hrest
    simp only [hadmits, not_true_eq_false, if_false, wp_bind]
    refine wp_write _ ?_ ?_ ?_
    · intro rest' hrest'
      exact hdone rest' (fun hfaults => hrest' (hrest hfaults))
    · intro progress rest' hfaults
      have hfaults : m.faults ≠ [] := fun hnone => hfaults (hrest hnone)
      rcases progress with _ | _ | _
      · exact hfailed _ _ _ (by simp) hfaults (.inl rfl)
      · exact hfailed _ _ _ (by simp) hfaults (.inl rfl)
      · exact hfailed _ _ _ (by simp) hfaults (.inr rfl)
    · intro progress hfaults
      have hfaults : m.faults ≠ [] := fun hnone => hfaults (hrest hnone)
      rcases progress with _ | _ | _
      · exact hcrash _ hfaults (.inl rfl)
      · exact hcrash _ hfaults (.inl rfl)
      · exact hcrash _ hfaults (.inr rfl)
  · intro rest hfaults
    exact hfailed _ _ _ (by simp) hfaults (.inl rfl)
  · intro hfaults
    exact hcrash _ hfaults (.inl rfl)

end Wp

end Lora
