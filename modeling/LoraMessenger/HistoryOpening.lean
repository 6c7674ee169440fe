/-
Opening the history store, as the session sees it.

A file that is not there is created in two steps, and a crash between them leaves a
database that nobody can open.  What is there is opened if it holds a history, and an
older schema is migrated on the way; this the session does not see.

* `migrates_holds`, `migrates_blank` — what is kept when a database is opened;
* `openStore_simulates`, `openExistingBound_simulates` — the two ways to open it.
-/
import LoraMessenger.HistorySimulation

namespace Lora.HistoryStore

open Crash Sql

variable {db : Database} {history : StoredHistory} {identity : Identity}

/-! ### What is kept -/

theorem OldHistory.storable {entries : List TimelineEntry} {lastAssignedOrder : ℕ}
    (h : OldHistory history identity entries lastAssignedOrder) : Storable history := by
  rw [h.eq]
  exact ⟨ordered_unseeded h.valid, .empty, rfl, rfl⟩

theorem OldHistory.holdsCurrent {entries : List TimelineEntry} {lastAssignedOrder : ℕ}
    (h : OldHistory history identity entries lastAssignedOrder)
    (hdb : HoldsUnseeded db identity entries lastAssignedOrder) : HoldsCurrent history db := by
  refine ⟨hdb.present, ?_, h.storable⟩
  rw [h.eq]
  exact hdb.represents

theorem HoldsCurrent.checks (h : HoldsCurrent history db) :
    db.present ∧ db.isNewDatabase = false ∧ existing db = .ok () := by
  obtain ⟨window, hrecords, hlast⟩ := h.storable.ledger
  refine ⟨h.present, ?_, existing_of_represents h.represents h.storable.toOrdered hrecords hlast⟩
  simp [Database.isNewDatabase, h.represents.applicationId, kHistoryApplicationId]

theorem migrates_holds (history : StoredHistory) :
    Migrates (HoldsFirst history) (HoldsSecond history) (HoldsCurrent history) where
  firstVersion := fun _ ⟨_, _, _, _, h⟩ => h.userVersion
  secondVersion := fun _ ⟨_, _, _, _, h⟩ => h.userVersion
  currentVersion _ h := h.represents.userVersion
  checks db h := by
    rcases h with ⟨_, _, _, hold, h⟩ | ⟨_, _, _, hold, h⟩ | h
    · exact stage_checks hold.valid (.inl h)
    · exact stage_checks hold.valid (.inr (.inl h))
    · exact h.checks
  verified db h := by
    obtain ⟨window, hrecords, hlast⟩ := h.storable.ledger
    exact ⟨h.represents.verifySchema,
      h.represents.runIntegrityChecks h.storable.toOrdered hrecords hlast⟩
  toSecond := by
    rintro failpoints db ⟨identity, entries, lastAssignedOrder, hold, h⟩
    exact (migrateV1ToV2_holds hold.valid failpoints h).imp fun left hleft =>
      ⟨identity, entries, lastAssignedOrder, hold, hleft⟩
  toCurrent := by
    rintro failpoints db ⟨identity, entries, lastAssignedOrder, hold, h⟩
    exact (migrateV2ToV3_holds failpoints h).imp fun left => hold.holdsCurrent

/-- A database without metadata stays one. -/
theorem migrates_blank :
    Migrates (fun _ => False) (fun _ => False) (· = blankDatabase) where
  firstVersion _ h := h.elim
  secondVersion _ h := h.elim
  currentVersion := by
    rintro _ rfl
    rfl
  checks := by
    rintro _ (⟨⟨⟩⟩ | ⟨⟨⟩⟩ | rfl)
    decide
  verified := by
    rintro _ rfl
    decide
  toSecond _ _ h := h.elim
  toCurrent _ _ h := h.elim

/-! ### Creating -/

/-- A transaction that puts another database in place. -/
theorem keeps_create (error : HistoryError) {before always : Database → Prop}
    {created : Database} (hbefore : ∀ db, before db → always db) (hcreated : always created) :
    Keeps before (runTransaction error [exec error fun _ => some created])
      (fun _ => (· = created)) always := by
  refine (atomic_transact _ _).keeps hbefore ?_
  rintro _ _ left - ⟨⟩
  exact ⟨rfl, hcreated⟩

theorem keeps_createSchema (failpoints : Failpoints) {always : Database → Prop}
    (hnew : always newDatabase) (hblank : always blankDatabase) :
    Keeps (· = newDatabase) (configureSchema failpoints) (fun _ => (· = blankDatabase)) always := by
  have hheader : Keeps (· = newDatabase)
      (queryDatabase .configureFailed fun db => .ok (db.isNewDatabase, db.userVersion))
      (fun header db => db = newDatabase ∧ header = (true, 0)) always := by
    refine (reads_query _ _).keeps (fun _ h => h ▸ hnew) ?_
    rintro _ header rfl ⟨⟩
    exact ⟨rfl, rfl⟩
  refine hheader.bind fun ⟨isNewDatabase, version⟩ => .known ?_
  rintro ⟨⟩
  exact keeps_create .writeFailed (fun db (h : db = newDatabase) => h ▸ hnew) hblank

/-- The stages of a database that is created. -/
def Creating (db : Database) : Prop :=
  db.present = false ∨ db = newDatabase ∨ db = blankDatabase

theorem keeps_createStore (failpoints : Failpoints) :
    Keeps (fun db => db.present = false) (openStore failpoints) (fun _ => (· = blankDatabase))
      Creating := by
  have hpreflight : Keeps (fun db => db.present = false) preflightOrCreate
      (fun _ => (· = newDatabase)) Creating := by
    refine (keeps_present (fun _ => .inl) fun _ => id).bind fun artifacts => .known ?_
    rintro rfl
    exact keeps_create .openFailed (fun _ => .inl) (.inr (.inl rfl))
  have hnew (db : Database) (h : db = newDatabase) : Creating db := .inr (.inl h)
  have hblank (db : Database) (h : db = blankDatabase) : Creating db := .inr (.inr h)
  have hconfigured : Keeps (· = newDatabase) (configureDatabase failpoints)
      (fun _ => (· = blankDatabase)) Creating :=
    ((reads_configureConnection _).keeps_before hnew).bind fun _ =>
      (keeps_createSchema failpoints (hnew _ rfl) (hblank _ rfl)).bind fun _ =>
      ((reads_query _ _).keeps_before hblank).bind fun _ =>
      ((reads_query _ _).keeps_before hblank).bind fun _ =>
      (reads_configureConnection _).keeps_before hblank
  exact hpreflight.bind fun _ => hconfigured.bind fun _ =>
    (reads_configureConnection _).keeps_before hblank

theorem calmly_createStore (failpoints : Failpoints) (h : db.present = false) :
    Calmly (openStore failpoints) db () blankDatabase := by
  have hartifacts : Calmly (queryDatabase .openFailed fun db => .ok db.present) db false db :=
    (reads_query _ _).calmly (by rw [h])
  have hcreated : Calmly (runTransaction .openFailed [exec .openFailed fun _ => some newDatabase])
      db () newDatabase := rfl
  have hconfigured : Calmly (configureDatabase failpoints) newDatabase () blankDatabase := rfl
  exact (hartifacts.bind hcreated).bind
    (hconfigured.bind ((reads_configureConnection _).calmly rfl))

/-! ### Databases that nobody can open -/

theorem bound_blank (identity : Identity) : bound identity blankDatabase = .error .invalidData :=
  rfl

/-- A copy that ends up without metadata is refused. -/
theorem unreadable_of_configureCopy {always : Database → Prop}
    (h : Keeps (· = db) configureCopy (fun _ => (· = blankDatabase)) always) : Unreadable db := by
  intro identity
  have hbound : Keeps (· = blankDatabase) (readBound identity) (fun _ _ => False)
      (fun _ => True) := by
    refine (reads_readBound identity).keeps (fun _ _ => trivial) ?_
    rintro _ _ rfl hread
    rw [bound_blank] at hread
    cases hread
  -- The metadata is looked for on the copy, after its schema has been brought up to date.
  have hcopy := ((h.weaken fun _ _ => trivial).bind fun _ => hbound).onCopy rfl
  refine ((reads_configureConnection _).keeps_always).bind fun _ => hcopy.bind fun _ => ?_
  rintro m ⟨-, _, ⟨⟩⟩

theorem unreadable_newDatabase : Unreadable newDatabase := by
  have hcopy : Keeps (· = newDatabase) configureCopy (fun _ => (· = blankDatabase))
      (fun _ => True) :=
    ((reads_configureConnection _).keeps_before fun _ _ => trivial).bind fun _ =>
      (keeps_createSchema _ trivial trivial).bind fun _ =>
      ((reads_query _ _).keeps_before fun _ _ => trivial).bind fun _ =>
      (reads_query _ _).keeps_before fun _ _ => trivial
  exact unreadable_of_configureCopy hcopy

theorem unreadable_blankDatabase : Unreadable blankDatabase :=
  unreadable_of_configureCopy
    (migrates_blank.keeps_configureCopy.mono (fun _ h => .inr (.inr h)) fun _ _ => id)

/-! ### The two ways to open it -/

/-- The file before `open`, which looks at the schema of what is there. -/
structure Unopened (db : Database) (file : HistoryFile) : Prop where
  depicts : Depicts db file
  damaged : file = .damaged → ∃ error, existing db = .error error

theorem Opened.unopened {file : HistoryFile} (h : Opened db file) : Unopened db file :=
  ⟨h.depicts, by rintro rfl; cases h⟩

theorem Creating.unopened {disk : Disk} (h : Creating db) (hfile : disk.history = .missing) :
    ∃ progress file, createDatabase progress disk = { disk with history := file } ∧
      Unopened db file := by
  have hsame : { disk with history := .missing } = disk := by rw [← hfile]
  -- The file is made in one transaction and its tables in another one.
  rcases h with habsent | rfl | rfl
  · exact ⟨.untouched, .missing, hsame.symm, .missing habsent, by simp⟩
  · exact ⟨.partly, .damaged, rfl, .damaged rfl unreadable_newDatabase, fun _ => ⟨_, rfl⟩⟩
  · exact ⟨.complete, .blank, rfl, .blank rfl, by simp⟩

theorem refused_openStore {error : HistoryError} (hpresent : db.present)
    (herror : existing db = .error error) (failpoints : Failpoints) :
    Keeps (· = db) (openStore failpoints) (fun _ _ => False) (· = db) := by
  have hpreflight : Keeps (· = db) preflightOrCreate (fun _ _ => False) (· = db) := by
    have hchecked : Keeps (· = db) validateExistingDatabase (fun _ _ => False) (· = db) := by
      refine reads_validateExistingDatabase.keeps (fun _ => id) ?_
      rintro _ _ rfl hchecked
      rw [herror] at hchecked
      cases hchecked
    refine (keeps_present (fun _ => id) fun _ h => h ▸ hpresent).bind fun artifacts => .known ?_
    rintro rfl
    exact (reads_configureConnection _).keeps_always.bind fun _ =>
      (reads_configureConnection _).keeps_always.bind fun _ =>
      hchecked.bind fun _ => nofun
  exact hpreflight.bind fun _ => nofun

/-- Whether a file that is there can be opened. -/
def opens : HistoryFile → Bool
  | .blank => true
  | .stored _ => true
  | _ => false

theorem openHistory_eq {μ : Type} {memory : μ} {disk : Disk} {file : HistoryFile}
    (hfile : disk.history = file) (h : file ≠ .missing) (faults : List Fault) :
    openHistory ⟨memory, disk, faults⟩ = readFor false (opens file) ⟨memory, disk, faults⟩ := by
  rcases disk with ⟨settings, other⟩
  obtain rfl : other = file := hfile
  rcases faults with _ | ⟨_ | _ | _, faults⟩
  all_goals
    cases other with
    | missing => exact absurd rfl h
    | _ => rfl

/-- What is found in a file that is opened for an identity. -/
def found (identity : Identity) : HistoryFile → HistoryError
  | .stored history =>
    if !history.identityMatches identity then .identityMismatch
    else match history.readSnapshot identity with
      | .error error => error
      | .ok _ => .none
  | .blank => .invalidData
  | _ => .openFailed

theorem openExistingBound_eq {μ : Type} (identity : Identity) (memory : μ) (disk : Disk)
    (faults : List Fault) : Lora.openExistingBound identity ⟨memory, disk, faults⟩ =
      readFor .readFailed (found identity disk.history) ⟨memory, disk, faults⟩ := by
  have hread : (Lora.openExistingBound identity : Prog μ Disk HistoryError) = Prog.read >>=
      fun disk => pure (disk.elim .readFailed fun disk => found identity disk.history) := by
    refine congrArg (Prog.read >>= ·) (funext fun disk => ?_)
    rcases disk with _ | ⟨settings, file⟩
    · rfl
    cases file with
    | stored history =>
      dsimp only [Option.elim, found]
      by_cases hidentity : history.identityMatches identity
      · rw [hidentity]
        cases history.readSnapshot identity with
        | error error => rfl
        | ok snapshot => rfl
      · rw [Bool.eq_false_of_not_eq_true hidentity]
        rfl
    | _ => rfl
  rw [hread]
  rcases faults with _ | ⟨_ | _ | _, faults⟩ <;> rfl

/-- Opening a database is opening its file; on the way a missing one is created and an
old one migrated. -/
theorem openStore_simulates {μ : Type} :
    Simulates Unopened (openStore fun _ => false) (openHistory : Prog μ Disk Bool) ofSuccess
      Opened := by
  rintro replies db memory disk ⟨hdepicts, hdamaged⟩
  generalize hfile : disk.history = file at hdepicts hdamaged
  cases hdepicts with
  | missing habsent =>
    have hcreated := (keeps_createStore fun _ => false).wp_calmly
      (calmly_createStore _ habsent) habsent replies
    refine wp_mono hcreated ?_ ?_
    · rintro result m (⟨_, rfl, hblank⟩ | ⟨hreplies, ⟨_, rfl⟩, hleft⟩)
      · refine ⟨[.none, .none], true, .blank, fun later => ?_, by simp, rfl, .blank hblank⟩
        simp [openHistory, bind, Prog.read, hfile, Prog.write, createDatabase, pure]
      -- How far the creation got is how far the write of the file got.
      · obtain ⟨progress, file, hcreate, hunopened⟩ := hleft.unopened hfile
        refine ⟨[.none, .failed progress], false, file, fun later => ?_,
          fun hnone => absurd hnone hreplies, hunopened⟩
        simp [openHistory, bind, Prog.read, hfile, Prog.write, hcreate, pure]
    · intro left hleft
      obtain ⟨progress, file, hcreate, hunopened⟩ := hleft.unopened hfile
      refine ⟨[.none, .crash progress], file, hunopened, fun later => ?_⟩
      simp [openHistory, bind, Prog.read, hfile, Prog.write, hcreate]
  | damaged hpresent hunreadable =>
    obtain ⟨error, herror⟩ := hdamaged rfl
    refine .of_refusal false false ((refused_openStore hpresent herror _).weaken ?_)
      (openHistory_eq hfile (by simp)) ⟨_, rfl⟩
    rintro _ rfl
    rw [hfile]
    exact ⟨.damaged hpresent hunreadable, hdamaged⟩
  | blank hblank =>
    obtain ⟨left, hcalm, -⟩ := migrates_blank.calmly_openStore (.inr (.inr hblank))
    refine .of_calm false true ?_ ?_ hcalm (openHistory_eq hfile (by simp)) ⟨_, rfl⟩ rfl
    · rw [hfile]
      exact (Opened.blank hblank).unopened
    · rw [hfile]
      refine (migrates_blank.keeps_openStore.mono ?_ fun _ _ => Opened.blank).weaken ?_
      · rintro _ ⟨hdepicts, -⟩
        cases hdepicts with
        | blank hblank => exact .inr (.inr hblank)
      · rintro _ (⟨⟨⟩⟩ | ⟨⟨⟩⟩ | h)
        exact (Opened.blank h).unopened
  | @stored history hholds =>
    obtain ⟨left, hcalm, -⟩ := (migrates_holds history).calmly_openStore hholds
    refine .of_calm false true ?_ ?_ hcalm (openHistory_eq hfile (by simp)) ⟨_, rfl⟩ rfl
    · rw [hfile]
      exact ⟨.stored hholds, by simp⟩
    · rw [hfile]
      refine ((migrates_holds history).keeps_openStore.mono ?_ fun _ _ => Opened.stored).weaken ?_
      · rintro _ ⟨hdepicts, -⟩
        cases hdepicts with
        | stored hholds => exact hholds
      · exact fun _ h => ⟨.stored h, by simp⟩

theorem error_of_readSnapshot {error : HistoryError}
    (h : history.readSnapshot identity = .error error) : error = .invalidData := by
  simp only [StoredHistory.readSnapshot] at h
  repeat' split at h
  all_goals cases h
  all_goals rfl

/-- The history that is stored here is one of this identity. -/
def Passes (identity : Identity) (history : StoredHistory) : Prop :=
  found identity (.stored history) = .none

theorem HoldsCurrent.bound_iff (h : HoldsCurrent history db) (identity : Identity) :
    HistoryStore.bound identity db = .ok () ↔ Passes identity history := by
  rw [h.bound, Passes, found]
  by_cases hidentity : history.identityMatches identity
  · rw [hidentity]
    cases hread : history.readSnapshot identity with
    | error error =>
      rw [error_of_readSnapshot hread]
      exact iff_of_false nofun nofun
    | ok snapshot => exact iff_of_true rfl rfl
  · rw [Bool.eq_false_of_not_eq_true hidentity]
    exact iff_of_false nofun nofun

theorem keeps_readBound : Keeps (HoldsCurrent history) (readBound identity)
    (fun _ _ => Passes identity history) (Holds history) :=
  (reads_readBound identity).keeps (fun _ h => .inr (.inr h)) fun _ _ h hbound =>
    (h.bound_iff identity).mp hbound

/-- The check changes the copy, and the history on it is the one in the database. -/
theorem keeps_validateBoundDatabase (h : Holds history db) :
    Keeps (· = db) (validateBoundDatabase identity)
      (fun _ left => left = db ∧ Passes identity history) (· = db) := by
  have hcopy : Keeps (· = db) (onCopy do
      configureCopy
      readBound identity)
      (fun _ left => left = db ∧ ∃ _ : Database, Passes identity history) (· = db) :=
    ((migrates_holds history).keeps_configureCopy.bind fun _ => keeps_readBound).onCopy h
  refine (reads_configureConnection _).keeps_always.bind fun _ => hcopy.bind fun _ => ?_
  refine (reads_configureConnection _).keeps (fun _ h => h.1) ?_
  rintro _ _ ⟨rfl, _, hpasses⟩ -
  exact ⟨rfl, hpasses⟩

/-- A database is left as it is unless its history is one of this identity. -/
theorem keeps_openExistingBound :
    Keeps (Holds history) (openExistingBound identity)
      (fun _ db => HoldsCurrent history db ∧ Passes identity history) (Holds history) := by
  have hvalidated : Keeps (Holds history) (validateBoundDatabase identity)
      (fun _ db => Holds history db ∧ Passes identity history) (Holds history) := by
    refine .each fun db hm => ((keeps_validateBoundDatabase hm).mono (fun _ => id) ?_).weaken ?_
    · rintro _ _ ⟨rfl, hpasses⟩
      exact ⟨hm, hpasses⟩
    · rintro _ rfl
      exact hm
  have hconfigured : Keeps (Holds history) (do
      configureConnection .openFailed
      configureDatabase fun _ => false
      configureConnection .openFailed) (fun _ => HoldsCurrent history) (Holds history) :=
    (reads_configureConnection _).keeps_always.bind fun _ =>
      (migrates_holds history).keeps_configureDatabase.bind fun _ =>
      (reads_configureConnection _).keeps_before fun _ h => .inr (.inr h)
  have hpresent (db : Database) (h : Holds history db) : db.present :=
    ((migrates_holds history).checks db h).1
  refine (keeps_present (fun _ => id) hpresent).bind fun artifacts => .known ?_
  rintro rfl
  refine hvalidated.bind fun _ => .known fun hpasses => ?_
  exact hconfigured.mono (fun _ => id) fun _ _ h => ⟨h, hpasses⟩

theorem calmly_openExistingBound (h : Holds history db) (hpasses : Passes identity history) :
    ∃ left, Calmly (openExistingBound identity) db () left := by
  obtain ⟨hpresent, -, -⟩ := (migrates_holds history).checks db h
  obtain ⟨copy, hcopied, hcopy⟩ := (migrates_holds history).calmly_configureCopy h
  obtain ⟨left, hconfigured, -⟩ := (migrates_holds history).calmly_configureDatabase h
  have hconnection (error : HistoryError) (db : Database) :
      Calmly (configureConnection error) db () db := (reads_configureConnection error).calmly rfl
  have hread : Calmly (readBound identity) copy () copy :=
    (reads_readBound identity).calmly ((hcopy.bound_iff identity).mpr hpasses)
  have hartifacts : Calmly (queryDatabase .openFailed fun db => .ok db.present) db true db :=
    (reads_query _ _).calmly (by rw [hpresent])
  have hvalidated : Calmly (validateBoundDatabase identity) db () db :=
    (hconnection _ db).bind ((hcopied.bind hread).onCopy.bind (hconnection _ db))
  exact ⟨left, hartifacts.bind (hvalidated.bind ((hconnection _ db).bind
    (hconfigured.bind (hconnection _ left))))⟩

/-- A database that is not there or cannot be read is refused. -/
theorem refused_openExistingBound (h : db.present → Unreadable db) (identity : Identity) :
    Keeps (· = db) (openExistingBound identity) (fun _ _ => False) (· = db) := by
  have hpresent (left : Database) (h : left = db) : left.present = db.present := by rw [h]
  refine (keeps_present (fun _ => id) hpresent).bind fun artifacts => .known ?_
  rintro rfl
  cases hpresent : db.present with
  | false => exact fun m hm => hm
  | true => exact (h hpresent identity).bind fun _ => nofun

/-- Opening a database for an identity is a look at the history in its file. -/
theorem openExistingBound_simulates {μ : Type} (identity : Identity) :
    Simulates Depicts (openExistingBound identity)
      (Lora.openExistingBound identity : Prog μ Disk HistoryError) ofCode Opened := by
  intro replies db memory disk h
  have hrefused (hunreadable : db.present → Unreadable db)
      (hfound : ∃ error, ofCode (found identity disk.history) = .error error) :
      SimulatesFrom Depicts (openExistingBound identity) (Lora.openExistingBound identity) ofCode
        Opened replies db memory disk := by
    refine .of_refusal _ _ ((refused_openExistingBound hunreadable identity).weaken ?_)
      (openExistingBound_eq identity memory disk) hfound
    rintro _ rfl
    exact h
  generalize hfile : disk.history = file at h
  cases h with
  | missing habsent =>
    exact hrefused (fun hpresent => absurd hpresent (by simp [habsent])) ⟨_, by rw [hfile]; rfl⟩
  | damaged hpresent hunreadable => exact hrefused (fun _ => hunreadable) ⟨_, by rw [hfile]; rfl⟩
  | blank hblank =>
    exact hrefused (fun _ => hblank ▸ unreadable_blankDatabase) ⟨_, by rw [hfile]; rfl⟩
  | @stored history hholds =>
    have hbefore (db : Database) (h : Depicts db (.stored history)) : Holds history db := by
      cases h with
      | stored hholds => exact hholds
    -- What passes on the copy is what passes on the file.
    by_cases hpasses : Passes identity history
    · obtain ⟨left, hcalm⟩ := calmly_openExistingBound hholds hpasses
      refine .of_calm .readFailed .none ?_ ?_ hcalm ?_ ⟨_, rfl⟩ rfl
      · rw [hfile]
        exact .stored hholds
      · rw [hfile]
        exact (keeps_openExistingBound.mono hbefore fun _ _ h => .stored h.1).weaken
          fun _ => .stored
      · intro faults
        rw [openExistingBound_eq, hfile, hpasses]
    · refine .of_refusal _ _ ?_ (openExistingBound_eq identity memory disk)
        ⟨_, ofCode_of_ne (hfile ▸ hpasses)⟩
      rw [hfile]
      refine (keeps_openExistingBound.mono ?_ fun _ _ h => hpasses h.2).weaken fun _ => .stored
      rintro _ rfl
      exact hholds

end Lora.HistoryStore
