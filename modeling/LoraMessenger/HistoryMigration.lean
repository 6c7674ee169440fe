/-
Migrating the history.

A database of the first schema is rewritten in two transactions when it is
opened, and its ledger is seeded in a third one when it is first loaded.  Each
of them takes the database from one of four stages to the next, and each stage
holds the same timeline; a failure or a crash leaves the stage as it was.

* `Stage` — the four stages;
* `Migrates.keeps_openStore`, `keeps_loadSnapshot` — no attempt leaves them;
* `migration_preserves_history` — from each of them the timeline is loaded.
-/
import LoraMessenger.HistorySave

namespace Lora.HistoryStore

open Crash Sql

/-- The entries are a timeline of this identity. -/
structure ValidTimeline (identity : Identity) (entries : List TimelineEntry)
    (lastAssignedOrder : ℕ) : Prop where
  length : entries.length ≤ kMaxTimelineEntries
  stamped : Stamped TimelineEntry.messageId TimelineEntry.receivedOrder lastAssignedOrder entries
  locals : LocalsValid identity entries
  queued : entries.countP TimelineEntry.isQueued ≤ kMaxQueuedLocalPosts
  sized : lastAssignedOrder ≤ kMaximumOrder

/-- A timeline from before the ledger. -/
def unseeded (entries : List TimelineEntry) (lastAssignedOrder : ℕ) : HistorySnapshot :=
  { entries, lastAssignedOrder }

/-- The same timeline with a ledger that lists just its entries. -/
def seeded (entries : List TimelineEntry) (lastAssignedOrder : ℕ) : HistorySnapshot :=
  { entries, lastAssignedOrder
    seenMessages := recordsFrom 0 entries
    lastSeenOrder := entries.length }

/-- The metadata before the ledger. -/
def oldMetaRows (installId : Uuid) (lastAssignedOrder : ℕ) : List MetaRow :=
  [⟨.installId, installId.bytes⟩, ⟨.lastAssignedOrder, encodeUint64 lastAssignedOrder⟩]

/-! ### Stages -/

/-- What the first two schemas have in common. -/
structure HoldsOld (db : Database) (identity : Identity) (lastAssignedOrder : ℕ) : Prop where
  present : db.present
  applicationId : db.applicationId = kHistoryApplicationId
  metadata : ∃ rows, db.metadata = some ⟨false, rows⟩ ∧
    rows.Perm (oldMetaRows identity.installId.uuid lastAssignedOrder)
  metadataV2 : db.metadataV2 = none
  postsV1 : db.postsV1 = none
  seenMessages : db.seenMessages = none

/-- A database of the first schema; it has no mentions and no times. -/
structure HoldsV1 (db : Database) (identity : Identity) (entries : List TimelineEntry)
    (lastAssignedOrder : ℕ) : Prop extends HoldsOld db identity lastAssignedOrder where
  userVersion : db.userVersion = 1
  posts : ∃ rows, db.posts = some (.v1 rows) ∧ rows.Perm (entries.map postRowV1)
  mentions : db.mentions = none
  plain : ∀ entry ∈ entries, entry.post.mentions = [] ∧ entry.post.senderTime = none

/-- A database of the second schema. -/
structure HoldsV2 (db : Database) (identity : Identity) (entries : List TimelineEntry)
    (lastAssignedOrder : ℕ) : Prop extends HoldsOld db identity lastAssignedOrder where
  userVersion : db.userVersion = 2
  posts : ∃ rows, db.posts = some (.v2 rows) ∧ rows.Perm (entries.map postRow)
  mentions : ∃ rows, db.mentions = some rows ∧ rows.Perm (entries.flatMap mentionRows)

/-- A database of the current schema whose ledger is still to be seeded. -/
structure HoldsUnseeded (db : Database) (identity : Identity) (entries : List TimelineEntry)
    (lastAssignedOrder : ℕ) : Prop where
  present : db.present
  represents : Represents db
    ⟨identity.installId.uuid, false, unseeded entries lastAssignedOrder⟩

structure HoldsSeeded (db : Database) (identity : Identity) (entries : List TimelineEntry)
    (lastAssignedOrder : ℕ) : Prop where
  present : db.present
  represents : Represents db ⟨identity.installId.uuid, true, seeded entries lastAssignedOrder⟩

/-- The stages with the current schema. -/
def Current3 (identity : Identity) (entries : List TimelineEntry) (lastAssignedOrder : ℕ)
    (db : Database) : Prop :=
  HoldsUnseeded db identity entries lastAssignedOrder ∨
    HoldsSeeded db identity entries lastAssignedOrder

def Stage (identity : Identity) (entries : List TimelineEntry) (lastAssignedOrder : ℕ)
    (db : Database) : Prop :=
  HoldsV1 db identity entries lastAssignedOrder ∨ HoldsV2 db identity entries lastAssignedOrder ∨
    Current3 identity entries lastAssignedOrder db

variable {identity : Identity} {entries : List TimelineEntry} {lastAssignedOrder : ℕ}
  {db left : Database} {failpoints : Failpoints}

/-- The metadata of the current schema, as the migration writes it. -/
def migratedMeta (rows : List MetaRow) : List MetaRow :=
  rows ++ [⟨.lastSeenOrder, zeroOrder⟩] ++ [⟨.dedupeInitialized, [0]⟩]

theorem migratedMeta_perm {rows : List MetaRow} {installId : Uuid}
    (hrows : rows.Perm (oldMetaRows installId lastAssignedOrder)) :
    (migratedMeta rows).Perm (metaRows installId lastAssignedOrder 0 0) := by
  have hzero : zeroOrder = encodeUint64 0 := by decide
  have hperm := hrows.append_right
    [(⟨.lastSeenOrder, zeroOrder⟩ : MetaRow), ⟨.dedupeInitialized, [0]⟩]
  rw [migratedMeta, List.append_assoc]
  rw [hzero] at hperm ⊢
  exact hperm

/-- The steps of a migration all succeed, unless its failpoint is set. -/
def Migrated (fails : Bool) (steps : List Step) (db : Database) (after : Database → Prop) : Prop :=
  if fails then applyAll steps db = .error .migrationFailed
  else ∃ left, applyAll steps db = .ok left ∧ after left

theorem Migrated.imp {fails : Bool} {steps : List Step} {after after' : Database → Prop}
    (h : Migrated fails steps db after) (hafter : ∀ left, after left → after' left) :
    Migrated fails steps db after' := by
  rw [Migrated] at h ⊢
  split at h
  · rename_i hfails
    rwa [if_pos hfails]
  · rename_i hfails
    obtain ⟨left, happly, hleft⟩ := h
    rw [if_neg hfails]
    exact ⟨left, happly, hafter left hleft⟩

theorem Migrated.of_ok {fails : Bool} {steps : List Step} {after : Database → Prop}
    (h : Migrated fails steps db after) (hleft : applyAll steps db = .ok left) : after left := by
  rw [Migrated, hleft] at h
  split at h
  · cases h
  · obtain ⟨_, ⟨⟩, hafter⟩ := h
    exact hafter

section Migrate

variable (hvalid : ValidTimeline identity entries lastAssignedOrder)

include hvalid

theorem copyPosts_holds {rows : List PostRowV1} (hrows : rows.Perm (entries.map postRowV1))
    (hplain : ∀ entry ∈ entries, entry.post.mentions = [] ∧ entry.post.senderTime = none) :
    (rows.map fun row => ({ row with senderTime := none } : PostRow)).Perm (entries.map postRow) ∧
      postRules.holds (rows.map fun row => ({ row with senderTime := none } : PostRow)) := by
  have hperm : (rows.map fun row => ({ row with senderTime := none } : PostRow)).Perm
      (entries.map postRow) := by
    have hmap := hrows.map fun row => ({ row with senderTime := none } : PostRow)
    rw [List.map_map] at hmap
    refine hmap.trans (List.Perm.of_eq (List.map_congr_left fun entry hentry => ?_))
    simp [postRow, (hplain entry hentry).2]
  exact ⟨hperm, Rules.holds_perm (fun a b hab => by simpa [postRules, ne_comm] using hab) hperm
    (holds_postRows hvalid.stamped hvalid.sized)⟩

theorem migrateV1ToV2_holds (failpoints : Failpoints)
    (h : HoldsV1 db identity entries lastAssignedOrder) :
    Migrated (failpoints .migrationPostsRenamed) (migrateV1ToV2 failpoints) db
      (HoldsV2 · identity entries lastAssignedOrder) := by
  obtain ⟨rows, hposts, hrows⟩ := h.posts
  obtain ⟨hperm, hholds⟩ := copyPosts_holds hvalid hrows h.plain
  have hcopied : insertAll postRules
    (rows.map fun row => ({ row with senderTime := none } : PostRow)) [] =
      some _ := insertAll_eq hholds
  have hmentions : entries.flatMap mentionRows = [] := by
    rw [List.flatMap_eq_nil_iff]
    intro entry hentry
    rw [mentionRows, (h.plain entry hentry).1]
    rfl
  rw [Migrated]
  split
  · rename_i hfails
    simp [migrateV1ToV2, applyAll, exec, failpoint, Database.renamePosts, hposts, h.postsV1, hfails]
  · rename_i hfails
    refine ⟨{ db with userVersion := 2, posts := some (.v2 ([] ++ rows.map fun row =>
      ({ row with senderTime := none } : PostRow))), postsV1 := none, mentions := some [] }, ?_, ?_⟩
    · simp only [migrateV1ToV2, applyAll, exec, failpoint, Database.renamePosts,
        Database.createPosts, Database.copyPosts, Database.dropPostsV1, Database.createMentions,
        Database.setUserVersion, hposts, h.postsV1, h.mentions, hfails, hcopied, Option.map_some,
        if_false, Bool.false_eq_true]
    · exact { h with
        userVersion := rfl
        posts := ⟨_, rfl, hperm⟩
        postsV1 := rfl
        mentions := ⟨[], rfl, List.Perm.of_eq hmentions.symm⟩ }

omit hvalid in
theorem migrateV2ToV3_holds (failpoints : Failpoints)
    (h : HoldsV2 db identity entries lastAssignedOrder) :
    Migrated (failpoints .migrationSeenTableCreated) (migrateV2ToV3 failpoints) db
      (HoldsUnseeded · identity entries lastAssignedOrder) := by
  obtain ⟨rows, hmetadata, hrows⟩ := h.metadata
  have hperm := migratedMeta_perm hrows
  have hholds : (metaRules true).holds (migratedMeta rows) :=
    Rules.holds_perm (fun a b hab => by simpa [metaRules, ne_comm] using hab) hperm
      (holds_metaRows _ _ _ (.inl rfl))
  rw [migratedMeta] at hholds
  have hseen := Rules.holds_sublist hholds (List.sublist_append_left _ _)
  -- The rows go in one by one, and then the two new ones.
  have hcopied : insertAll (metaRules true) rows [] = some rows :=
    insertAll_eq (Rules.holds_sublist hseen (List.sublist_append_left _ _))
  rw [Migrated]
  split
  · rename_i hfails
    simp only [migrateV2ToV3, applyAll, exec, failpoint, Database.renameMeta, Database.createMeta,
      Database.copyMeta, Database.insertMeta, Database.dropMetaV2, Database.createSeenMessages,
      hmetadata, h.metadataV2, h.seenMessages, hfails, hcopied, insert_eq hseen, insert_eq hholds,
      Option.map_some, if_true]
  · rename_i hfails
    obtain ⟨posts, hposts, hpostsPerm⟩ := h.posts
    refine ⟨{ db with
      userVersion := 3
      metadata := some ⟨true, migratedMeta rows⟩
      metadataV2 := none
      seenMessages := some [] }, ?_, ?_⟩
    · simp only [migrateV2ToV3, applyAll, exec, failpoint, Database.renameMeta, Database.createMeta,
        Database.copyMeta, Database.insertMeta, Database.dropMetaV2, Database.createSeenMessages,
        Database.setUserVersion, hmetadata, h.metadataV2, h.seenMessages, hfails, hcopied,
        insert_eq hseen, insert_eq hholds, Option.map_some, if_false, Bool.false_eq_true,
          migratedMeta]
    · exact ⟨h.present,
        { applicationId := h.applicationId
          userVersion := rfl
          metadata := ⟨_, rfl, hperm⟩
          metadataV2 := rfl
          posts := h.posts
          postsV1 := h.postsV1
          mentions := h.mentions
          seenMessages := ⟨[], rfl, List.Perm.refl _⟩ }⟩

end Migrate

/-! ### Every stage passes the checks -/

theorem holds_oldMetaRows {rows : List MetaRow} {installId : Uuid}
    (hrows : rows.Perm (oldMetaRows installId lastAssignedOrder)) :
    (metaRules false).holds rows := by
  refine Rules.holds_perm (fun a b hab => by simpa [metaRules, ne_comm] using hab) hrows ?_
  rw [Rules.holds_iff]
  simp [oldMetaRows, metaRules, installId.length_bytes, length_encode]

theorem ordered_unseeded (hvalid : ValidTimeline identity entries lastAssignedOrder) :
    Ordered (unseeded entries lastAssignedOrder) where
  assigned := hvalid.sized
  seen := Nat.zero_le _
  entries := hvalid.stamped
  seenMessages := Stamped.nil

section Checks

variable (hvalid : ValidTimeline identity entries lastAssignedOrder)

include hvalid

theorem sized_seeded : Sized (seeded entries lastAssignedOrder) := by
  refine ⟨hvalid.sized, ?_⟩
  have hlength : entries.length ≤ 256 := hvalid.length
  show entries.length ≤ 2 ^ 64 - 1
  omega

/-- The seeded snapshot is what reconciliation makes of the unseeded one. -/
theorem reconcile_unseeded :
    reconcileSnapshotDedupe (unseeded entries lastAssignedOrder) =
      .ok (seeded entries lastAssignedOrder) ∧
    ∃ window, SnapshotValid window (seeded entries lastAssignedOrder) identity :=
  reconcileSnapshotDedupe_seed hvalid.length hvalid.stamped hvalid.locals hvalid.queued

theorem existing_of_v1 (h : HoldsV1 db identity entries lastAssignedOrder) : existing db =
    .ok () := by
  obtain ⟨rows, hmetadata, hrows⟩ := h.metadata
  obtain ⟨posts, hposts, hpostsPerm⟩ := h.posts
  have hheader : checkExistingHeader db = .ok 1 := by
    simp [checkExistingHeader, Database.isNewDatabase, h.applicationId, h.userVersion,
      kHistoryApplicationId, kHistorySchemaVersion]
  have hpostHolds : postRulesV1.holds posts :=
    Rules.holds_perm (fun a b hab => by simpa [postRulesV1, ne_comm] using hab) hpostsPerm
      (holds_postRowsV1 hvalid.stamped hvalid.sized)
  have hintegrity : runIntegrityChecks db = .ok () := by
    have hmentionRows : db.mentionRows =
      [] := by rw [Database.mentionRows, h.mentions, Option.getD_none]
    have hseenRows : db.seenMessageRows = [] := by
      rw [Database.seenMessageRows, h.seenMessages, Option.getD_none]
    simp [runIntegrityChecks, Database.integrityCheck, Database.foreignKeyCheck, hmentionRows,
      hseenRows, hmetadata, hposts, holds_oldMetaRows hrows, hpostHolds]
  have hschema : verifySchema 1 db = .ok () := by
    simp [verifySchema, hmetadata, hposts, h.mentions, h.seenMessages, h.metadataV2, h.postsV1,
      Database.hasPostsV1]
  rw [existing, hheader, hintegrity]
  exact hschema

theorem existing_of_v2 (h : HoldsV2 db identity entries lastAssignedOrder) : existing db =
    .ok () := by
  obtain ⟨rows, hmetadata, hrows⟩ := h.metadata
  obtain ⟨posts, hposts, hpostsPerm⟩ := h.posts
  obtain ⟨mentions, hmentions, hmentionsPerm⟩ := h.mentions
  have hheader : checkExistingHeader db = .ok 2 := by
    simp [checkExistingHeader, Database.isNewDatabase, h.applicationId, h.userVersion,
      kHistoryApplicationId, kHistorySchemaVersion]
  have hintegrity : runIntegrityChecks db = .ok () := by
    have hseenRows : db.seenMessageRows = [] := by
      rw [Database.seenMessageRows, h.seenMessages, Option.getD_none]
    obtain ⟨hpostHolds, hmentionHolds, hparents⟩ :=
      posts_intact hvalid.stamped hvalid.sized hpostsPerm hmentionsPerm
    have hmentionRows : db.mentionRows = mentions := by
      rw [Database.mentionRows, hmentions, Option.getD_some]
    have hpostRows : db.postRows = posts := by rw [Database.postRows, hposts]
    have hforeign : db.foreignKeyCheck := by
      rw [Database.foreignKeyCheck, List.all_eq_true, hmentionRows]
      intro row hrow
      rw [Database.hasPost, hpostRows]
      exact hparents row hrow
    simp [runIntegrityChecks, Database.integrityCheck, hforeign, hmentionRows, hseenRows, hmetadata,
      hposts, holds_oldMetaRows hrows, hpostHolds, hmentionHolds]
  have hschema : verifySchema 2 db = .ok () := by
    simp [verifySchema, hmetadata, hposts, hmentions, h.seenMessages, h.metadataV2, h.postsV1,
      Database.hasPostsV2]
  rw [existing, hheader, hintegrity]
  exact hschema

omit hvalid in
theorem existing_of_represents {history : StoredHistory} {window : MessageDedupeWindow}
    (h : Represents db history) (hordered : Ordered history.snapshot)
    (hwindow : window.records = history.snapshot.seenMessages)
    (hlast : window.lastSeenOrder = history.snapshot.lastSeenOrder) : existing db = .ok () := by
  have hheader : checkExistingHeader db = .ok kHistorySchemaVersion := by
    simp [checkExistingHeader, Database.isNewDatabase, h.applicationId, h.userVersion,
      kHistoryApplicationId, kHistorySchemaVersion]
  rw [existing, hheader, h.runIntegrityChecks hordered hwindow hlast]
  exact h.verifySchema

/-- The checks of a database of the current schema. -/
theorem current3_checks (h : Current3 identity entries lastAssignedOrder db) :
    existing db = .ok () ∧ verifySchema kHistorySchemaVersion db = .ok () ∧
      runIntegrityChecks db = .ok () ∧ db.userVersion = kHistorySchemaVersion := by
  rcases h with h | h
  · have hordered := ordered_unseeded hvalid
    have hwindow : MessageDedupeWindow.empty.records =
      (unseeded entries lastAssignedOrder).seenMessages := rfl
    exact ⟨existing_of_represents h.represents hordered hwindow rfl, h.represents.verifySchema,
      h.represents.runIntegrityChecks hordered hwindow rfl, h.represents.userVersion⟩
  · obtain ⟨window, hwindow⟩ := (reconcile_unseeded hvalid).2
    have hordered := ordered_of_valid hwindow (sized_seeded hvalid)
    exact ⟨existing_of_represents h.represents hordered hwindow.records hwindow.last,
      h.represents.verifySchema,
      h.represents.runIntegrityChecks hordered hwindow.records hwindow.last,
        h.represents.userVersion⟩

theorem stage_checks (h : Stage identity entries lastAssignedOrder db) :
    db.present ∧ db.isNewDatabase = false ∧ existing db = .ok () := by
  have hold (applicationId : db.applicationId = kHistoryApplicationId) :
      db.isNewDatabase = false := by
    simp [Database.isNewDatabase, applicationId, kHistoryApplicationId]
  rcases h with h | h | h
  · exact ⟨h.present, hold h.applicationId, existing_of_v1 hvalid h⟩
  · exact ⟨h.present, hold h.applicationId, existing_of_v2 hvalid h⟩
  · refine ⟨?_, ?_, (current3_checks hvalid h).1⟩
    · exact h.elim HoldsUnseeded.present HoldsSeeded.present
    · exact hold (h.elim (·.represents.applicationId) (·.represents.applicationId))

end Checks

/-! ### Opening -/

theorem keeps_present {before always : Database → Prop} {present : Bool}
    (halways : ∀ db, before db → always db) (hpresent : ∀ db, before db → db.present = present) :
    Keeps before (queryDatabase .openFailed fun db => .ok db.present)
      (fun artifacts db => before db ∧ artifacts = present) always := by
  refine (reads_query _ _).keeps halways ?_
  rintro db _ h ⟨⟩
  exact ⟨h, hpresent db h⟩

/-- Databases of three schemas, such that each migration leads from one to the next. -/
structure Migrates (first second current : Database → Prop) : Prop where
  firstVersion : ∀ db, first db → db.userVersion = 1
  secondVersion : ∀ db, second db → db.userVersion = 2
  currentVersion : ∀ db, current db → db.userVersion = kHistorySchemaVersion
  checks : ∀ db, first db ∨ second db ∨ current db →
    db.present ∧ db.isNewDatabase = false ∧ existing db = .ok ()
  verified : ∀ db, current db →
    verifySchema kHistorySchemaVersion db = .ok () ∧ runIntegrityChecks db = .ok ()
  toSecond : ∀ (failpoints : Failpoints) (db : Database), first db →
    Migrated (failpoints .migrationPostsRenamed) (migrateV1ToV2 failpoints) db second
  toCurrent : ∀ (failpoints : Failpoints) (db : Database), second db →
    Migrated (failpoints .migrationSeenTableCreated) (migrateV2ToV3 failpoints) db current

theorem migrates_stage (hvalid : ValidTimeline identity entries lastAssignedOrder) :
    Migrates (HoldsV1 · identity entries lastAssignedOrder)
      (HoldsV2 · identity entries lastAssignedOrder)
      (Current3 identity entries lastAssignedOrder) where
  firstVersion _ h := h.userVersion
  secondVersion _ h := h.userVersion
  currentVersion _ h := (current3_checks hvalid h).2.2.2
  checks _ h := stage_checks hvalid h
  verified _ h := ⟨(current3_checks hvalid h).2.1, (current3_checks hvalid h).2.2.1⟩
  toSecond failpoints _ h := migrateV1ToV2_holds hvalid failpoints h
  toCurrent failpoints _ h := (migrateV2ToV3_holds failpoints h).imp fun _ => .inl

namespace Migrates

variable {first second current : Database → Prop} (hmigrates : Migrates first second current)

include hmigrates

/-- Each migration takes its stage to the next one or leaves it. -/
theorem keeps_migrateV1ToV2 :
    Keeps first (runTransaction .migrationFailed (migrateV1ToV2 failpoints)) (fun _ => second)
      (fun db => first db ∨ second db ∨ current db) := by
  refine (atomic_transact _ _).keeps (fun _ => .inl) ?_
  intro db _ left h hleft
  have hnext := (hmigrates.toSecond failpoints db h).of_ok (map_eq_ok hleft)
  exact ⟨hnext, .inr (.inl hnext)⟩

theorem keeps_migrateV2ToV3 :
    Keeps second (runTransaction .migrationFailed (migrateV2ToV3 failpoints)) (fun _ => current)
      (fun db => first db ∨ second db ∨ current db) := by
  refine (atomic_transact _ _).keeps (fun _ h => .inr (.inl h)) ?_
  intro db _ left h hleft
  have hnext := (hmigrates.toCurrent failpoints db h).of_ok (map_eq_ok hleft)
  exact ⟨hnext, .inr (.inr hnext)⟩

/-- The version says which stage it is. -/
theorem stage_of_version (h : first db ∨ second db ∨ current db) :
    (db.userVersion = 1 → first db) ∧ (db.userVersion = 2 → second db) ∧
    (db.userVersion ≠ 1 → db.userVersion ≠ 2 → current db) := by
  rcases h with h | h | h
  · have hfirst := hmigrates.firstVersion db h
    exact ⟨fun _ => h, fun hversion => by omega, fun hversion => absurd hfirst hversion⟩
  · have hsecond := hmigrates.secondVersion db h
    exact ⟨fun hversion => by omega, fun _ => h, fun _ hversion => absurd hsecond hversion⟩
  · have hcurrent : db.userVersion = 3 := hmigrates.currentVersion db h
    exact ⟨fun hversion => by omega, fun hversion => by omega, fun _ _ => h⟩

theorem keeps_migrateDatabase (version : ℕ) :
    Keeps (fun db => (first db ∨ second db ∨ current db) ∧ db.userVersion = version)
      (migrateDatabase failpoints version) (fun _ => current)
      (fun db => first db ∨ second db ∨ current db) := by
  have hstage (db : Database) (h : (first db ∨ second db ∨ current db) ∧
      db.userVersion = version) := hmigrates.stage_of_version h.1
  unfold migrateDatabase
  split
  · refine (hmigrates.keeps_migrateV1ToV2.bind fun _ => hmigrates.keeps_migrateV2ToV3).mono ?_
      fun _ _ => id
    exact fun db h => (hstage db h).1 h.2
  · exact hmigrates.keeps_migrateV2ToV3.mono (fun db h => (hstage db h).2.1 h.2) fun _ _ => id
  · rename_i hone htwo
    exact keeps_pure () fun db h => (hstage db h).2.2 (h.2.trans_ne hone) (h.2.trans_ne htwo)

theorem keeps_configureSchema :
    Keeps (fun db => first db ∨ second db ∨ current db) (configureSchema failpoints)
      (fun _ => current) (fun db => first db ∨ second db ∨ current db) := by
  have hheader : Keeps (fun db => first db ∨ second db ∨ current db)
      (queryDatabase .configureFailed fun db => .ok (db.isNewDatabase, db.userVersion))
      (fun header db => (first db ∨ second db ∨ current db) ∧ header = (false, db.userVersion))
      (fun db => first db ∨ second db ∨ current db) := by
    refine (reads_query _ _).keeps (fun _ => id) ?_
    rintro db value h ⟨⟩
    exact ⟨h, by rw [(hmigrates.checks db h).2.1]⟩
  refine hheader.bind fun ⟨isNewDatabase, version⟩ => ?_
  cases isNewDatabase with
  | true =>
    intro m hm
    cases hm.2
  | false =>
    have hkept : Keeps
        (fun db => (first db ∨ second db ∨ current db) ∧
          (false, version) = (false, db.userVersion))
        validateExistingDatabase
        (fun _ db => (first db ∨ second db ∨ current db) ∧ db.userVersion = version)
        (fun db => first db ∨ second db ∨ current db) := by
      refine reads_validateExistingDatabase.keeps (fun _ h => h.1) ?_
      rintro db _ ⟨h, hversion⟩ -
      cases hversion
      exact ⟨h, rfl⟩
    exact hkept.bind fun _ => hmigrates.keeps_migrateDatabase version

theorem keeps_configureDatabase :
    Keeps (fun db => first db ∨ second db ∨ current db) (configureDatabase failpoints)
      (fun _ => current) (fun db => first db ∨ second db ∨ current db) :=
  (reads_configureConnection _).keeps_always.bind fun _ =>
    hmigrates.keeps_configureSchema.bind fun _ =>
    ((reads_query _ _).keeps_before fun _ h => .inr (.inr h)).bind fun _ =>
    ((reads_query _ _).keeps_before fun _ h => .inr (.inr h)).bind fun _ =>
    (reads_configureConnection _).keeps_before fun _ h => .inr (.inr h)

theorem keeps_configureCopy :
    Keeps (fun db => first db ∨ second db ∨ current db) configureCopy
      (fun _ => current) (fun db => first db ∨ second db ∨ current db) :=
  (reads_configureConnection _).keeps_always.bind fun _ =>
    hmigrates.keeps_configureSchema.bind fun _ =>
    ((reads_query _ _).keeps_before fun _ h => .inr (.inr h)).bind fun _ =>
    (reads_query _ _).keeps_before fun _ h => .inr (.inr h)

/-- No attempt to open the database loses what it holds. -/
theorem keeps_openStore :
    Keeps (fun db => first db ∨ second db ∨ current db) (openStore failpoints)
      (fun _ => current) (fun db => first db ∨ second db ∨ current db) := by
  have hpreflight : Keeps (fun db => first db ∨ second db ∨ current db) preflightOrCreate
      (fun _ db => first db ∨ second db ∨ current db)
      (fun db => first db ∨ second db ∨ current db) := by
    refine (keeps_present (fun _ => id) fun db h => (hmigrates.checks db h).1).bind
      fun artifacts => .known ?_
    rintro rfl
    exact (reads_configureConnection _).keeps_always.bind fun _ =>
      (reads_configureConnection _).keeps_always.bind fun _ =>
      reads_validateExistingDatabase.keeps_always.bind fun _ =>
      (reads_configureConnection _).keeps_always
  exact hpreflight.bind fun _ => hmigrates.keeps_configureDatabase.bind fun _ =>
    (reads_configureConnection _).keeps_before fun _ h => .inr (.inr h)

/-- If nothing fails the database is migrated. -/
theorem calmly_migrateDatabase (h : first db ∨ second db ∨ current db) :
    ∃ left, Calmly (migrateDatabase (fun _ => false) db.userVersion) db () left ∧
      current left := by
  have hsecond {db : Database} (h : second db) :
      ∃ left, Calmly (runTransaction .migrationFailed (migrateV2ToV3 fun _ => false)) db () left ∧
        current left := by
    obtain ⟨left, happly, hleft⟩ := hmigrates.toCurrent (fun _ => false) db h
    exact ⟨left, (atomic_transact _ _).calmly (congrArg (Except.map _) happly), hleft⟩
  -- Each stage starts where its version says.
  rcases h with h | h | h
  · obtain ⟨middle, happly, hmiddle⟩ := hmigrates.toSecond (fun _ => false) db h
    obtain ⟨left, hcalm, hleft⟩ := hsecond hmiddle
    refine ⟨left, ?_, hleft⟩
    rw [hmigrates.firstVersion db h]
    exact ((atomic_transact _ _).calmly (congrArg (Except.map _) happly)).bind hcalm
  · obtain ⟨left, hcalm, hleft⟩ := hsecond h
    refine ⟨left, ?_, hleft⟩
    rw [hmigrates.secondVersion db h]
    exact hcalm
  · refine ⟨db, ?_, h⟩
    rw [hmigrates.currentVersion db h]
    exact (atomic_pure ()).calmly rfl

theorem calmly_configureSchema (h : first db ∨ second db ∨ current db) :
    ∃ left, Calmly (configureSchema fun _ => false) db () left ∧ current left := by
  obtain ⟨-, hnew, hexisting⟩ := hmigrates.checks db h
  obtain ⟨left, hmigrated, hleft⟩ := hmigrates.calmly_migrateDatabase h
  have hheader : Calmly (queryDatabase .configureFailed fun db =>
      .ok (db.isNewDatabase, db.userVersion)) db (false, db.userVersion) db :=
    (reads_query _ _).calmly (by rw [hnew])
  have hchecked : Calmly validateExistingDatabase db () db :=
    reads_validateExistingDatabase.calmly hexisting
  exact ⟨left, hheader.bind (hchecked.bind hmigrated), hleft⟩

theorem calmly_configureDatabase (h : first db ∨ second db ∨ current db) :
    ∃ left, Calmly (configureDatabase fun _ => false) db () left ∧ current left := by
  obtain ⟨left, hconfigured, hleft⟩ := hmigrates.calmly_configureSchema h
  obtain ⟨hschema, hintegrity⟩ := hmigrates.verified left hleft
  exact ⟨left, ((reads_configureConnection _).calmly rfl).bind
    (hconfigured.bind (((reads_query _ _).calmly hschema).bind
      (((reads_query _ _).calmly hintegrity).bind
        ((reads_configureConnection _).calmly rfl)))), hleft⟩

theorem calmly_configureCopy (h : first db ∨ second db ∨ current db) :
    ∃ left, Calmly configureCopy db () left ∧ current left := by
  obtain ⟨left, hconfigured, hleft⟩ := hmigrates.calmly_configureSchema h
  obtain ⟨hschema, hintegrity⟩ := hmigrates.verified left hleft
  exact ⟨left, ((reads_configureConnection _).calmly rfl).bind
    (hconfigured.bind (((reads_query _ _).calmly hschema).bind
      ((reads_query _ _).calmly hintegrity))), hleft⟩

theorem calmly_openStore (h : first db ∨ second db ∨ current db) :
    ∃ left, Calmly (openStore fun _ => false) db () left ∧ current left := by
  obtain ⟨hpresent, -, hexisting⟩ := hmigrates.checks db h
  obtain ⟨left, hconfigured, hleft⟩ := hmigrates.calmly_configureDatabase h
  have hconnection (error : HistoryError) (db : Database) :
      Calmly (configureConnection error) db () db := (reads_configureConnection error).calmly rfl
  have hchecked : Calmly validateExistingDatabase db () db :=
    reads_validateExistingDatabase.calmly hexisting
  have hartifacts : Calmly (queryDatabase .openFailed fun db => .ok db.present) db true db :=
    (reads_query _ _).calmly (by rw [hpresent])
  have hpreflight : Calmly preflightOrCreate db () db :=
    hartifacts.bind ((hconnection _ db).bind ((hconnection _ db).bind
      (hchecked.bind (hconnection _ db))))
  exact ⟨left, hpreflight.bind (hconfigured.bind (hconnection _ left)), hleft⟩

end Migrates

/-! ### Loading -/

section Load

variable (hvalid : ValidTimeline identity entries lastAssignedOrder)

include hvalid

/-- The rows are read, and the ledger is found to be missing. -/
theorem stored_unseeded (h : HoldsUnseeded db identity entries lastAssignedOrder) :
    stored identity db = .ok (unseeded entries lastAssignedOrder, false) := by
  have hordered := ordered_unseeded hvalid
  have hwindow : MessageDedupeWindow.empty.records =
    (unseeded entries lastAssignedOrder).seenMessages := rfl
  have hpreflight : preflight db = .ok () := h.represents.preflight hordered hwindow rfl
  let history : StoredHistory :=
    ⟨identity.installId.uuid, false, unseeded entries lastAssignedOrder⟩
  have hidentity : identityMatches (metadataOf history) identity := by
    simp [identityMatches, metadataOf, history]
  have hread : readSnapshot db (metadataOf history) identity =
      .ok (unseeded entries lastAssignedOrder) := by
    obtain ⟨hreconcile, hseeded⟩ := reconcile_unseeded hvalid
    have hposts : StoredHistory.readPosts identity lastAssignedOrder [] 0 0 entries :=
      StoredHistory.readPosts_of_valid (by simpa using hvalid.length) hvalid.stamped.positive
        hvalid.stamped.bounded hvalid.stamped.increasing (by simp) hvalid.locals
        fun entry _ _ => sequence_pos entry
    have hchecks : validateSnapshot (seeded entries lastAssignedOrder) identity = .none :=
      validateSnapshot_eq_none.mpr hseeded
    rw [h.represents.readSnapshot hordered, StoredHistory.readSnapshot]
    simp only [hreconcile, hchecks]
    simp [unseeded, hposts, StoredHistory.readSeenMessages]
  rw [stored, hpreflight, h.represents.loadMetadata hordered.toSized]
  show (if !identityMatches _ _ then _ else readSnapshot _ _ _ >>= _) = _
  rw [hidentity, hread]
  rfl

theorem loaded_unseeded (failpoints : Failpoints)
    (h : HoldsUnseeded db identity entries lastAssignedOrder) :
    loaded failpoints identity db =
      saved failpoints (seeded entries lastAssignedOrder) identity db >>=
      fun left => .ok (seeded entries lastAssignedOrder, left) := by
  rw [loaded, stored_unseeded hvalid h]
  show reconcileSnapshotDedupe _ >>= _ = _
  rw [(reconcile_unseeded hvalid).1]
  rfl

/-- The seeded ledger replaces no other. -/
theorem checkStored_unseeded (h : HoldsUnseeded db identity entries lastAssignedOrder) :
    checkStored (seeded entries lastAssignedOrder) identity db = .ok () := by
  have hordered := ordered_unseeded hvalid
  have hledger : db.orderedSeenMessages = [] := h.represents.orderedSeenMessages hordered
  rw [checkStored, h.represents.loadMetadata hordered.toSized]
  dsimp only
  rw [if_neg (by simp [identityMatches, metadataOf]),
    if_neg (by simp [metadataOf, seeded, unseeded]),
    if_neg]
  rintro ⟨hzero, hdiffers⟩
  -- Without entries both ledgers are empty.
  obtain rfl : entries = [] := List.eq_nil_of_length_eq_zero hzero
  rw [hledger] at hdiffers
  cases hdiffers

/-- What a load does with a database of the current schema. -/
theorem loaded_current3 (h : Current3 identity entries lastAssignedOrder db)
    {snapshot : HistorySnapshot}
    (hloaded : loaded failpoints identity db = .ok (snapshot, left)) :
    snapshot = seeded entries lastAssignedOrder ∧
      HoldsSeeded left identity entries lastAssignedOrder := by
  obtain ⟨-, window, hseeded⟩ := reconcile_unseeded hvalid
  have hsized := sized_seeded hvalid
  rcases h with h | h
  · rw [loaded_unseeded hvalid failpoints h] at hloaded
    obtain ⟨left', hsaved, hloaded⟩ := Guard.bind_eq_ok.mp hloaded
    cases hloaded
    obtain ⟨candidate, hcandidate, hchecks, rfl⟩ := (saved_eq_ok hsized).mp hsaved
    rw [reconcile_of_valid hseeded] at hcandidate
    cases hcandidate
    exact ⟨rfl, h.present, represents_written hchecks.current _ identity⟩
  · rw [loaded_represents h.represents hseeded hsized] at hloaded
    cases hloaded
    exact ⟨rfl, h⟩

/-- If nothing fails the ledger is seeded. -/
theorem loaded_calm (h : Current3 identity entries lastAssignedOrder db) :
    ∃ left, loaded (fun _ => false) identity db = .ok (seeded entries lastAssignedOrder, left) := by
  obtain ⟨-, window, hseeded⟩ := reconcile_unseeded hvalid
  have hsized := sized_seeded hvalid
  rcases h with h | h
  · have hordered := ordered_unseeded hvalid
    have hwindow : MessageDedupeWindow.empty.records =
      (unseeded entries lastAssignedOrder).seenMessages := rfl
    have hchecks : SaveChecks (fun _ => false) (seeded entries lastAssignedOrder) identity db :=
      ⟨⟨window, hseeded⟩, hsized, h.represents.preflight hordered hwindow rfl,
        checkStored_unseeded hvalid h, rfl⟩
    have hsaved := (saved_eq_ok hsized).mpr ⟨_, reconcile_of_valid hseeded, hchecks, rfl⟩
    refine ⟨written db (seeded entries lastAssignedOrder) identity, ?_⟩
    rw [loaded_unseeded hvalid _ h, hsaved]
    rfl
  · exact ⟨db, loaded_represents h.represents hseeded hsized⟩

/-- No attempt to load the history loses the timeline. -/
theorem keeps_loadSnapshot : Keeps (Stage identity entries lastAssignedOrder)
    (loadSnapshot failpoints identity) (fun _ => Stage identity entries lastAssignedOrder)
    (Stage identity entries lastAssignedOrder) := by
  have hold {db : Database} (hversion : db.userVersion ≠ 3) {value : HistorySnapshot × Database} :
      loaded failpoints identity db ≠ .ok value := by
    intro hloaded
    obtain ⟨_, hstored, -⟩ := Guard.bind_eq_ok.mp hloaded
    obtain ⟨_, hpreflight, -⟩ := Guard.bind_eq_ok.mp hstored
    exact hversion (current_of_preflight hpreflight).userVersion
  refine (atomic_loadSnapshot failpoints identity).keeps (fun _ => id) ?_
  intro db snapshot left h hloaded
  rcases h with h | h | h
  · exact absurd hloaded (hold (by rw [h.userVersion]; decide))
  · exact absurd hloaded (hold (by rw [h.userVersion]; decide))
  · have hleft := (loaded_current3 hvalid h hloaded).2
    exact ⟨.inr (.inr (.inr hleft)), .inr (.inr (.inr hleft))⟩

end Load

/-! ### Any number of attempts -/

/-- An attempt to open or to load, with what goes wrong in it. -/
inductive Attempt where
  | opening (failpoints : Failpoints) (replies : List Reply)
  | loading (failpoints : Failpoints) (replies : List Reply)

/-- The database after an attempt. -/
def Attempt.run (identity : Identity) (db : Database) : Attempt → Database
  | .opening failpoints replies => ((openStore failpoints).run ⟨replies, db, []⟩).left
  | .loading failpoints replies => ((loadSnapshot failpoints identity).run ⟨replies, db, []⟩).left

theorem stage_attempts (hvalid : ValidTimeline identity entries lastAssignedOrder)
    (attempts : List Attempt) (h : Stage identity entries lastAssignedOrder db) :
    Stage identity entries lastAssignedOrder (attempts.foldl (Attempt.run identity) db) := by
  induction attempts generalizing db with
  | nil => exact h
  | cons attempt attempts ih =>
    refine ih ?_
    cases attempt with
    | opening failpoints replies =>
      exact (migrates_stage hvalid).keeps_openStore.left (fun _ _ h => .inr (.inr h))
        (m := ⟨replies, db, []⟩) h
    | loading failpoints replies =>
      exact (keeps_loadSnapshot hvalid).left (fun _ _ => id) (m := ⟨replies, db, []⟩) h

/-- A database of an older schema keeps its timeline: after any number of attempts
that may fail or crash anywhere, opening and loading it returns the timeline with a
ledger that lists its entries in their order, and so does loading it once more. -/
theorem migration_preserves_history (identity : Identity) (entries : List TimelineEntry)
    (lastAssignedOrder : ℕ) (hvalid : ValidTimeline identity entries lastAssignedOrder)
    (db : Database)
    (hdb : HoldsV1 db identity entries lastAssignedOrder ∨
      HoldsV2 db identity entries lastAssignedOrder) (attempts : List Attempt) :
    ∃ opened left,
      Calmly (openStore fun _ => false) (attempts.foldl (Attempt.run identity) db) () opened ∧
      Calmly (loadSnapshot (fun _ => false) identity) opened
        { entries, lastAssignedOrder, seenMessages := recordsFrom 0 entries
          lastSeenOrder := entries.length } left ∧
      Calmly (loadSnapshot (fun _ => false) identity) left
        { entries, lastAssignedOrder, seenMessages := recordsFrom 0 entries
          lastSeenOrder := entries.length } left := by
  have hstage : Stage identity entries lastAssignedOrder db := hdb.imp_right .inl
  obtain ⟨opened, hopened, hcurrent⟩ :=
    (migrates_stage hvalid).calmly_openStore (stage_attempts hvalid attempts hstage)
  obtain ⟨left, hloaded⟩ := loaded_calm hvalid hcurrent
  have hseeded := (loaded_current3 hvalid hcurrent hloaded).2
  obtain ⟨-, window, hwindow⟩ := reconcile_unseeded hvalid
  refine ⟨opened, left, hopened, (atomic_loadSnapshot _ _).calmly hloaded,
    (atomic_loadSnapshot _ _).calmly ?_⟩
  exact loaded_represents hseeded.represents hwindow (sized_seeded hvalid)

/-- A post of the first schema, sent from here. -/
def oldEntry : TimelineEntry := ⟨samplePost, 3, .localDelivery .queued⟩

def oldIdentity : Identity := ⟨samplePost.senderId, samplePost.senderUserId, 1⟩

/-- A database of the first schema that holds it. -/
def oldDatabase : Database where
  userVersion := 1
  metadata := some ⟨false, oldMetaRows oldIdentity.installId.uuid 4⟩
  posts := some (.v1 [postRowV1 oldEntry])

/-- The first attempt fails in the migration to the second schema, the next one
crashes just when that is committed. -/
def oldAttempts : List Attempt :=
  [.opening (fun point => point = .migrationPostsRenamed) [],
    .opening (fun _ => false) (List.replicate 20 .done ++ [.crash true])]

/-- A received post that mentions two others. -/
def mentioningEntry : TimelineEntry where
  post :=
    { numberedPost 2 with
      mentions := [samplePost.senderId, ⟨samplePost.messageId.uuid, samplePost.messageId.v4⟩]
      mentions_length := by decide
      mentions_nodup := by decide }
  receivedOrder := 2
  origin := .receivedOrigin

/-- A database of the second schema whose rows are in no order. -/
def secondDatabase : Database where
  userVersion := 2
  metadata := some ⟨false, (oldMetaRows oldIdentity.installId.uuid 4).reverse⟩
  posts := some (.v2 [postRow oldEntry, postRow mentioningEntry])
  mentions := some (mentionRows mentioningEntry).reverse

theorem migration_preserves_history_oldDatabase :
    (∃ opened left,
      Calmly (openStore fun _ => false)
        (oldAttempts.foldl (Attempt.run oldIdentity) oldDatabase) () opened ∧
      Calmly (loadSnapshot (fun _ => false) oldIdentity) opened
        { entries := [oldEntry], lastAssignedOrder := 4, seenMessages := recordsFrom 0 [oldEntry]
          lastSeenOrder := 1 } left ∧
      Calmly (loadSnapshot (fun _ => false) oldIdentity) left
        { entries := [oldEntry], lastAssignedOrder := 4, seenMessages := recordsFrom 0 [oldEntry]
          lastSeenOrder := 1 } left) ∧
    ∃ opened left,
      Calmly (openStore fun _ => false)
        (oldAttempts.foldl (Attempt.run oldIdentity) secondDatabase) () opened ∧
      Calmly (loadSnapshot (fun _ => false) oldIdentity) opened
        { entries := [mentioningEntry, oldEntry], lastAssignedOrder := 4
          seenMessages := recordsFrom 0 [mentioningEntry, oldEntry], lastSeenOrder := 2 } left ∧
      Calmly (loadSnapshot (fun _ => false) oldIdentity) left
        { entries := [mentioningEntry, oldEntry], lastAssignedOrder := 4
          seenMessages := recordsFrom 0 [mentioningEntry, oldEntry], lastSeenOrder := 2 } left := by
  have hvalid : ValidTimeline oldIdentity [oldEntry] 4 :=
    { length := by decide
      stamped := ⟨by decide, by decide, by decide, by decide⟩
      locals := ⟨by decide, by decide, by decide⟩
      queued := by decide
      sized := by decide }
  have hold : HoldsV1 oldDatabase oldIdentity [oldEntry] 4 :=
    { present := rfl
      applicationId := rfl
      metadata := ⟨_, rfl, List.Perm.refl _⟩
      metadataV2 := rfl
      postsV1 := rfl
      seenMessages := rfl
      userVersion := rfl
      posts := ⟨_, rfl, List.Perm.refl _⟩
      mentions := rfl
      plain := by decide }
  have hvalid' : ValidTimeline oldIdentity [mentioningEntry, oldEntry] 4 :=
    { length := by decide
      stamped := ⟨by decide, by decide, by decide, by decide⟩
      locals := ⟨by decide, by decide, by decide⟩
      queued := by decide
      sized := by decide }
  have hsecond : HoldsV2 secondDatabase oldIdentity [mentioningEntry, oldEntry] 4 :=
    { present := rfl
      applicationId := rfl
      metadata := ⟨_, rfl, List.reverse_perm _⟩
      metadataV2 := rfl
      postsV1 := rfl
      seenMessages := rfl
      userVersion := rfl
      posts := ⟨_, rfl, List.Perm.swap _ _ _⟩
      mentions := ⟨_, rfl, List.reverse_perm _⟩ }
  exact ⟨migration_preserves_history oldIdentity _ 4 hvalid oldDatabase (.inl hold) oldAttempts,
    migration_preserves_history oldIdentity _ 4 hvalid' secondDatabase (.inr hsecond) oldAttempts⟩

end Lora.HistoryStore
