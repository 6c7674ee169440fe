/-
The store of the history.

`saveSnapshot` replaces all rows in one transaction, after the checks on the
snapshot and on the database.  `loadSnapshot` reads the rows in one transaction;
the ledger of a database that was migrated is seeded with a save.  `openStore`
brings an older database to the current schema, each migration in a transaction
of its own.

The replies of a connection decide which statement fails and where the process
ends, and `failpoints` which of the test hooks of the source are set.

* `atomic_saveSnapshot` — a save is done as a whole (`saved`) or not at all;
* `atomic_loadSnapshot` — a load is `loaded`, or changes nothing.
-/
import LoraMessenger.HistoryTables

namespace Lora.HistoryStore

open Crash Sql

abbrev Failpoints := SqliteHistoryWritePoint → Bool

/-- A statement in a transaction, and what is reported if it fails. -/
abbrev Step := Statement Database HistoryError

/-- An operation that stops at its first error. -/
abbrev StoreM := ExceptT HistoryError (Connection Database)

/-- `exec`: a statement that breaks a constraint, or finds no table, fails. -/
def exec (fallback : HistoryError) (change : Database → Option Database) : Step where
  effect db :=
    match change db with
    | none => .error fallback
    | some db => .ok db
  failure := errorForResult fallback

def failpoint (failpoints : Failpoints) (point : SqliteHistoryWritePoint) (error : HistoryError) :
    Step where
  effect db := if failpoints point then .error error else .ok db
  failure _ := error

/-! ### Statements -/

namespace Database

def insertMeta (row : MetaRow) (db : Database) : Option Database :=
  match db.metadata with
  | none => none
  | some table =>
    (insert (metaRules table.v3) row table.rows).map fun rows =>
      { db with metadata := some { table with rows } }

def insertPost (row : PostRow) (db : Database) : Option Database :=
  match db.posts with
  | some (.v2 posts) =>
    (insert postRules row posts).map fun posts => { db with posts := some (.v2 posts) }
  | _ => none

/-- The message must be there. -/
def insertMention (row : MentionRow) (db : Database) : Option Database :=
  match db.mentions with
  | none => none
  | some mentions =>
    if db.hasPost row.messageId then
      (insert mentionRules row mentions).map fun mentions => { db with mentions := some mentions }
    else none

def insertSeenMessage (row : SeenMessageRow) (db : Database) : Option Database :=
  match db.seenMessages with
  | none => none
  | some seenMessages =>
    (insert seenMessageRules row seenMessages).map fun seenMessages =>
      { db with seenMessages := some seenMessages }

/-- The mentions of a post go with it. -/
def deletePosts (db : Database) : Option Database :=
  match db.posts with
  | some (.v2 _) =>
    some { db with
      posts := some (.v2 [])
      mentions := db.mentions.map fun rows => rows.filter fun row => !db.hasPost row.messageId }
  | _ => none

def deleteSeenMessages (db : Database) : Option Database :=
  match db.seenMessages with
  | none => none
  | some _ => some { db with seenMessages := some [] }

def deleteMeta (db : Database) : Option Database :=
  match db.metadata with
  | none => none
  | some table => some { db with metadata := some { table with rows := [] } }

def renamePosts (db : Database) : Option Database :=
  match db.posts, db.postsV1 with
  | some (.v1 rows), none => some { db with posts := none, postsV1 := some rows }
  | _, _ => none

def createPosts (db : Database) : Option Database :=
  match db.posts with
  | none => some { db with posts := some (.v2 []) }
  | some _ => none

/-- `INSERT INTO posts … SELECT … FROM posts_v1`; the new column is null. -/
def copyPosts (db : Database) : Option Database :=
  match db.posts, db.postsV1 with
  | some (.v2 posts), some old =>
    (insertAll postRules (old.map fun row => { row with senderTime := none }) posts).map
      fun posts =>
      { db with posts := some (.v2 posts) }
  | _, _ => none

def dropPostsV1 (db : Database) : Option Database :=
  match db.postsV1 with
  | none => none
  | some _ => some { db with postsV1 := none }

def createMentions (db : Database) : Option Database :=
  match db.mentions with
  | none => some { db with mentions := some [] }
  | some _ => none

def renameMeta (db : Database) : Option Database :=
  match db.metadata, db.metadataV2 with
  | some table, none => some { db with metadata := none, metadataV2 := some table.rows }
  | _, _ => none

def createMeta (db : Database) : Option Database :=
  match db.metadata with
  | none => some { db with metadata := some ⟨true, []⟩ }
  | some _ => none

def copyMeta (db : Database) : Option Database :=
  match db.metadata, db.metadataV2 with
  | some table, some old =>
    (insertAll (metaRules table.v3) old table.rows).map fun rows =>
      { db with metadata := some { table with rows } }
  | _, _ => none

def dropMetaV2 (db : Database) : Option Database :=
  match db.metadataV2 with
  | none => none
  | some _ => some { db with metadataV2 := none }

def createSeenMessages (db : Database) : Option Database :=
  match db.seenMessages with
  | none => some { db with seenMessages := some [] }
  | some _ => none

def setUserVersion (version : ℕ) (db : Database) : Option Database :=
  some { db with userVersion := version }

end Database

/-! ### Saving -/

def localState : LocalDeliveryState → ℤ
  | .queued => 0
  | .broadcast => 1
  | .failed => 2
  | .unknown => 3

def postRowV1 (entry : TimelineEntry) : PostRowV1 where
  messageId := entry.post.messageId.uuid.bytes
  senderId := entry.post.senderId.uuid.bytes
  senderSequence := encodeUint64 entry.post.senderSequence.toNat
  senderUserId := entry.post.senderUserId.value
  body := entry.post.body.value
  replyTo := entry.post.replyTo.map fun replyTo => replyTo.uuid.bytes
  receivedOrder := encodeUint64 entry.receivedOrder
  origin :=
    match entry.origin with
    | .receivedOrigin => 0
    | .localDelivery _ => 1
  localState :=
    match entry.origin with
    | .receivedOrigin => none
    | .localDelivery state => some (localState state)

def postRow (entry : TimelineEntry) : PostRow :=
  { postRowV1 entry with senderTime := entry.post.senderTime }

def mentionRowsFrom (messageId : Bytes) : (index : ℕ) → List InstallId → List MentionRow
  | _, [] => []
  | index, mention :: rest =>
    ⟨messageId, index, mention.uuid.bytes⟩ :: mentionRowsFrom messageId (index + 1) rest

def mentionRows (entry : TimelineEntry) : List MentionRow :=
  mentionRowsFrom entry.post.messageId.uuid.bytes 0 entry.post.mentions

def seenMessageRow (record : SeenMessageRecord) : SeenMessageRow where
  messageId := record.messageId.uuid.bytes
  protocolVersion := 1
  encodedPost := record.encodedPost
  seenOrder := encodeUint64 record.seenOrder

def metaRows (installId : Uuid) (lastAssignedOrder lastSeenOrder : ℕ) (dedupeInitialized : UInt8) :
    List MetaRow :=
  [⟨.installId, installId.bytes⟩, ⟨.lastAssignedOrder, encodeUint64 lastAssignedOrder⟩,
    ⟨.lastSeenOrder, encodeUint64 lastSeenOrder⟩, ⟨.dedupeInitialized, [dedupeInitialized]⟩]

def rowMatches (row : SeenMessageRow) (expected : SeenMessageRecord) : Bool :=
  row.messageId.length = 16 && row.encodedPost.length = expected.encodedPost.length &&
    decodeUint64 row.seenOrder = some expected.seenOrder &&
    row.messageId = expected.messageId.uuid.bytes && row.encodedPost = expected.encodedPost

/-- The loop of `ledger_matches_snapshot`. -/
def ledgerMatchesSnapshot : List SeenMessageRow → List SeenMessageRecord → Bool
  | [], [] => true
  | row :: rows, expected :: records =>
    rowMatches row expected && ledgerMatchesSnapshot rows records
  | _, _ => false

/-- The checks of `write_snapshot` against what is stored. -/
def checkStored (snapshot : HistorySnapshot) (identity : Identity) (db : Database) :
    Except HistoryError Unit :=
  match loadMetadata db with
  | .error error => .error error
  | .ok none => .ok ()
  | .ok (some metadata) =>
    if !identityMatches metadata identity then .error .identityMismatch
    else if snapshot.lastAssignedOrder < metadata.lastAssignedOrder ∨
        snapshot.lastSeenOrder < metadata.lastSeenOrder then .error .invalidSnapshot
    else if snapshot.lastSeenOrder = metadata.lastSeenOrder ∧
        !ledgerMatchesSnapshot db.orderedSeenMessages snapshot.seenMessages then
      .error .invalidSnapshot
    else .ok ()

def insertEntry (entry : TimelineEntry) : List Step :=
  exec .writeFailed (Database.insertPost (postRow entry)) ::
    (mentionRows entry).map fun row => exec .writeFailed (Database.insertMention row)

/-- The statements of `write_snapshot`. -/
def writeSnapshot (failpoints : Failpoints) (snapshot : HistorySnapshot) (identity : Identity) :
    List Step :=
  ⟨fun db => (checkStored snapshot identity db).map fun _ => db, errorForResult .readFailed⟩ ::
  exec .writeFailed Database.deletePosts ::
  exec .writeFailed Database.deleteSeenMessages ::
  exec .writeFailed Database.deleteMeta ::
  (metaRows identity.installId.uuid snapshot.lastAssignedOrder snapshot.lastSeenOrder 1).map
    (fun row => exec .writeFailed (Database.insertMeta row)) ++
  snapshot.entries.flatMap insertEntry ++
  failpoint failpoints .snapshotTimelineWritten .writeFailed ::
  snapshot.seenMessages.map
    (fun record => exec .writeFailed (Database.insertSeenMessage (seenMessageRow record))) ++
  [failpoint failpoints .snapshotDedupeWritten .writeFailed]

def liftExcept {α : Type} (result : Except HistoryError α) : StoreM α :=
  match result with
  | .error error => throw error
  | .ok value => pure value

def queryDatabase {α : Type} (fallback : HistoryError) (select : Database → Except HistoryError α) :
    StoreM α := ExceptT.mk (query (errorForResult fallback) select)

def runTransaction (fallback : HistoryError) (statements : List Step) : StoreM Unit :=
  ExceptT.mk (transact (errorForResult fallback) statements)

def checkHeader (db : Database) : Except HistoryError Unit :=
  if db.applicationId ≠ kHistoryApplicationId then .error .wrongApplication
  else if db.userVersion ≠ kHistorySchemaVersion then .error .unsupportedSchema
  else .ok ()

def operationPreflight : StoreM Unit := do
  queryDatabase .readFailed checkHeader
  queryDatabase .invalidData (verifySchema kHistorySchemaVersion)
  queryDatabase .readFailed runIntegrityChecks

def saveSnapshot (failpoints : Failpoints) (snapshot : HistorySnapshot) (identity : Identity) :
    StoreM Unit := do
  let candidate ← liftExcept (reconcileSnapshotDedupe snapshot)
  if validateSnapshot candidate identity ≠ .none then throw (validateSnapshot candidate identity)
  else do
    operationPreflight
    runTransaction .writeFailed (writeSnapshot failpoints candidate identity)

/-! ### Loading -/

/-- `BEGIN` and `COMMIT` of a transaction that only reads. -/
def readBoundary : StoreM Unit := queryDatabase .readFailed fun _ => .ok ()

/-- The transaction of `load_snapshot`; the result says whether the ledger has
been seeded. -/
def readStored (identity : Identity) : StoreM (HistorySnapshot × Bool) := do
  readBoundary
  operationPreflight
  match ← queryDatabase .readFailed loadMetadata with
  | none => do
    readBoundary
    pure ({}, true)
  | some metadata =>
    if !identityMatches metadata identity then throw .identityMismatch
    else do
      let snapshot ← queryDatabase .readFailed fun db => readSnapshot db metadata identity
      readBoundary
      pure (snapshot, metadata.dedupeInitialized)

def loadSnapshot (failpoints : Failpoints) (identity : Identity) : StoreM HistorySnapshot := do
  let (snapshot, dedupeInitialized) ← readStored identity
  if dedupeInitialized then pure snapshot
  else do
    let migrated ← liftExcept (reconcileSnapshotDedupe snapshot)
    saveSnapshot failpoints migrated identity
    pure migrated

/-! ### Opening -/

def migrateV1ToV2 (failpoints : Failpoints) : List Step :=
  [exec .migrationFailed Database.renamePosts,
    failpoint failpoints .migrationPostsRenamed .migrationFailed,
    exec .migrationFailed Database.createPosts,
    exec .migrationFailed Database.copyPosts,
    exec .migrationFailed Database.dropPostsV1,
    exec .migrationFailed Database.createMentions,
    exec .migrationFailed (Database.setUserVersion 2)]

def migrateV2ToV3 (failpoints : Failpoints) : List Step :=
  [exec .migrationFailed Database.renameMeta,
    exec .migrationFailed Database.createMeta,
    exec .migrationFailed Database.copyMeta,
    exec .migrationFailed (Database.insertMeta ⟨.lastSeenOrder, zeroOrder⟩),
    exec .migrationFailed (Database.insertMeta ⟨.dedupeInitialized, [0]⟩),
    exec .migrationFailed Database.dropMetaV2, exec .migrationFailed Database.createSeenMessages,
    failpoint failpoints .migrationSeenTableCreated .migrationFailed,
    exec .migrationFailed (Database.setUserVersion 3)]

/-- An empty file. -/
def newDatabase : Database where
  applicationId := 0
  userVersion := 0
  metadata := none
  posts := none

/-- The tables of `kCreateSchemaSql`. -/
def blankDatabase : Database where
  userVersion := kHistorySchemaVersion
  metadata := some ⟨true, []⟩
  posts := some (.v2 [])
  mentions := some []
  seenMessages := some []

def checkExistingHeader (db : Database) : Except HistoryError ℕ :=
  if db.isNewDatabase ∨ db.applicationId ≠ kHistoryApplicationId then .error .wrongApplication
  else if db.userVersion < 1 ∨ db.userVersion > kHistorySchemaVersion then .error .unsupportedSchema
  else .ok db.userVersion

def validateExistingDatabase : StoreM Unit := do
  let userVersion ← queryDatabase .configureFailed checkExistingHeader
  queryDatabase .readFailed runIntegrityChecks
  queryDatabase .invalidData (verifySchema userVersion)

/-- Settings of the connection and of the file, which say nothing about rows. -/
def configureConnection (error : HistoryError) : StoreM Unit := queryDatabase error fun _ => .ok ()

def migrateDatabase (failpoints : Failpoints) (userVersion : ℕ) : StoreM Unit :=
  match userVersion with
  | 1 => do
    runTransaction .migrationFailed (migrateV1ToV2 failpoints)
    runTransaction .migrationFailed (migrateV2ToV3 failpoints)
  | 2 => runTransaction .migrationFailed (migrateV2ToV3 failpoints)
  | _ => pure ()

/-- The first half of `configure_database`: after it the schema is the current one. -/
def configureSchema (failpoints : Failpoints) : StoreM Unit := do
  let (isNewDatabase, userVersion) ←
    queryDatabase .configureFailed fun db => .ok (db.isNewDatabase, db.userVersion)
  if isNewDatabase then
    runTransaction .writeFailed [exec .writeFailed fun _ => some blankDatabase]
  else do
    validateExistingDatabase
    migrateDatabase failpoints userVersion

def configureDatabase (failpoints : Failpoints) : StoreM Unit := do
  configureConnection .configureFailed
  configureSchema failpoints
  queryDatabase .invalidData (verifySchema kHistorySchemaVersion)
  queryDatabase .readFailed runIntegrityChecks
  configureConnection .configureFailed

/-- An existing database is first checked on a copy. -/
def preflightOrCreate : StoreM Unit := do
  if ← queryDatabase .openFailed fun db => .ok db.present then do
    configureConnection .openFailed
    configureConnection .configureFailed
    validateExistingDatabase
    configureConnection .openFailed
  else runTransaction .openFailed [exec .openFailed fun _ => some newDatabase]

/-- `SqliteHistoryStore::open`, with a valid path. -/
def openStore (failpoints : Failpoints) : StoreM Unit := do
  preflightOrCreate
  configureDatabase failpoints
  configureConnection .openFailed

/-- `configure_database` for a copy: it keeps no journal. -/
def configureCopy : StoreM Unit := do
  configureConnection .configureFailed
  configureSchema fun _ => false
  queryDatabase .invalidData (verifySchema kHistorySchemaVersion)
  queryDatabase .readFailed runIntegrityChecks

/-- `sqlite3_close_v2`. -/
def closeConnection : StoreM Unit := ExceptT.mk (query (fun _ => .readFailed) fun _ => .ok ())

def readBound (identity : Identity) : StoreM Unit := do
  match ← queryDatabase .readFailed loadMetadata with
  | none => throw .invalidData
  | some metadata =>
    if !identityMatches metadata identity then throw .identityMismatch
    else do
      let _ ← queryDatabase .readFailed fun db => readSnapshot db metadata identity
      closeConnection

/-- `validate_bound_database_read_only`: the copy is migrated if it has to be, and
read. -/
def validateBoundDatabase (identity : Identity) : StoreM Unit := do
  configureConnection .openFailed
  onCopy do
    configureCopy
    readBound identity
  configureConnection .openFailed

/-- `SqliteHistoryStore::open_existing_bound`, with a valid path. -/
def openExistingBound (identity : Identity) : StoreM Unit := do
  if ← queryDatabase .openFailed fun db => .ok db.present then do
    validateBoundDatabase identity
    configureConnection .openFailed
    configureDatabase fun _ => false
    configureConnection .openFailed
  else throw .openFailed

/-! ### What the operations do when nothing fails -/

def preflight (db : Database) : Except HistoryError Unit := do
  checkHeader db
  verifySchema kHistorySchemaVersion db
  runIntegrityChecks db

/-- The database after a save. -/
def saved (failpoints : Failpoints) (snapshot : HistorySnapshot) (identity : Identity)
    (db : Database) : Except HistoryError Database := do
  let candidate ← reconcileSnapshotDedupe snapshot
  if validateSnapshot candidate identity ≠ .none then .error (validateSnapshot candidate identity)
  else
    preflight db
    applyAll (writeSnapshot failpoints candidate identity) db

/-- What is read in a load, and whether the ledger has been seeded. -/
def stored (identity : Identity) (db : Database) :
    Except HistoryError (HistorySnapshot × Bool) := do
  preflight db
  match ← loadMetadata db with
  | none => .ok ({}, true)
  | some metadata =>
    if !identityMatches metadata identity then .error .identityMismatch
    else
      let snapshot ← readSnapshot db metadata identity
      .ok (snapshot, metadata.dedupeInitialized)

/-- What a database that is opened for an identity has to hold. -/
def bound (identity : Identity) (db : Database) : Except HistoryError Unit := do
  match ← loadMetadata db with
  | none => .error .invalidData
  | some metadata =>
    if !identityMatches metadata identity then .error .identityMismatch
    else
      let _ ← readSnapshot db metadata identity
      .ok ()

/-- The result of a load, and the database after it. -/
def loaded (failpoints : Failpoints) (identity : Identity) (db : Database) :
    Except HistoryError (HistorySnapshot × Database) := do
  let (snapshot, dedupeInitialized) ← stored identity db
  if dedupeInitialized then .ok (snapshot, db)
  else
    let migrated ← reconcileSnapshotDedupe snapshot
    let db ← saved failpoints migrated identity db
    .ok (migrated, db)

theorem reads_liftExcept {α : Type} (result : Except HistoryError α) :
    Reads (liftExcept result) fun _ => result := by
  cases result with
  | error error => exact reads_throw error
  | ok value => exact reads_pure value

theorem reads_operationPreflight : Reads operationPreflight preflight :=
  Reads.bind (reads_query _ _) fun _ => Reads.bind (reads_query _ _) fun _ => reads_query _ _

theorem atomic_saveSnapshot (failpoints : Failpoints) (snapshot : HistorySnapshot)
    (identity : Identity) :
    Atomic (saveSnapshot failpoints snapshot identity) fun db =>
      (saved failpoints snapshot identity db).map ((), ·) := by
  have hchecked (candidate : HistorySnapshot) : Atomic
      (if validateSnapshot candidate identity ≠ .none then
        throw (validateSnapshot candidate identity)
      else do
        operationPreflight
        runTransaction .writeFailed (writeSnapshot failpoints candidate identity))
      fun db =>
        if validateSnapshot candidate identity ≠ .none then
          .error (validateSnapshot candidate identity)
        else
          preflight db >>= fun _ =>
            (applyAll (writeSnapshot failpoints candidate identity) db).map ((), ·) := by
    by_cases hvalid : validateSnapshot candidate identity = .none
    · simp only [hvalid, ne_eq, not_true_eq_false, if_false]
      exact Atomic.bind reads_operationPreflight fun _ => atomic_transact _ _
    · simp only [ne_eq, hvalid, not_false_eq_true, if_true]
      exact reads_throw _
  refine (Atomic.bind (reads_liftExcept _) hchecked).congr fun db => ?_
  simp only [saved]
  cases reconcileSnapshotDedupe snapshot with
  | error error => rfl
  | ok candidate =>
    show (if _ then _ else _) = Except.map _ (if _ then _ else _)
    split
    · rfl
    · cases preflight db with
      | error error => rfl
      | ok _ => rfl

theorem reads_readBoundary : Reads readBoundary fun _ => .ok () := reads_query _ _

theorem reads_readStored (identity : Identity) : Reads (readStored identity) (stored identity) := by
  have hrows (metadata : StoredMetadata) : Reads
      (if !identityMatches metadata identity then throw .identityMismatch
      else do
        let snapshot ← queryDatabase .readFailed fun db => readSnapshot db metadata identity
        readBoundary
        pure (snapshot, metadata.dedupeInitialized))
      fun db =>
        if !identityMatches metadata identity then .error .identityMismatch
        else readSnapshot db metadata identity >>= fun snapshot =>
          .ok (snapshot, metadata.dedupeInitialized) := by
    by_cases hidentity : identityMatches metadata identity
    · simp only [hidentity, Bool.not_true, Bool.false_eq_true, if_false]
      exact Reads.bind (reads_query _ _) fun snapshot => Reads.seq reads_readBoundary (reads_pure _)
    · simp only [hidentity, Bool.not_false, if_true]
      exact reads_throw _
  refine Reads.seq reads_readBoundary (Reads.bind reads_operationPreflight fun _ =>
    Reads.bind (reads_query _ _) fun metadata => ?_)
  cases metadata with
  | none => exact Reads.seq reads_readBoundary (reads_pure _)
  | some metadata => exact hrows metadata

theorem atomic_loadSnapshot (failpoints : Failpoints) (identity : Identity) :
    Atomic (loadSnapshot failpoints identity) (loaded failpoints identity) := by
  have hseed (migrated : HistorySnapshot) : Atomic
      (do
        saveSnapshot failpoints migrated identity
        pure migrated)
      fun db => saved failpoints migrated identity db >>= fun db => .ok (migrated, db) := by
    refine ((atomic_saveSnapshot failpoints migrated identity).map fun _ => migrated).congr
      fun db => ?_
    cases saved failpoints migrated identity db with
    | error error => rfl
    | ok db => rfl
  refine Atomic.bind (reads_readStored identity) fun ⟨snapshot, dedupeInitialized⟩ => ?_
  cases dedupeInitialized with
  | true => exact atomic_pure _
  | false => exact Atomic.bind (reads_liftExcept _) hseed

/-- What `validate_existing_database` finds. -/
def existing (db : Database) : Except HistoryError Unit := do
  let userVersion ← checkExistingHeader db
  runIntegrityChecks db
  verifySchema userVersion db

theorem reads_configureConnection (error : HistoryError) :
    Reads (configureConnection error) fun _ => .ok () := reads_query _ _

theorem reads_validateExistingDatabase : Reads validateExistingDatabase existing :=
  Reads.bind (reads_query _ _) fun _ => Reads.bind (reads_query _ _) fun _ => reads_query _ _

theorem reads_readBound (identity : Identity) : Reads (readBound identity) (bound identity) := by
  have hrows (metadata : StoredMetadata) : Reads
      (if !identityMatches metadata identity then throw .identityMismatch
      else do
        let _ ← queryDatabase .readFailed fun db => readSnapshot db metadata identity
        closeConnection)
      fun db =>
        if !identityMatches metadata identity then .error .identityMismatch
        else readSnapshot db metadata identity >>= fun _ => .ok () := by
    by_cases hidentity : identityMatches metadata identity
    · simp only [hidentity, Bool.not_true, Bool.false_eq_true, if_false]
      exact Reads.bind (reads_query _ _) fun _ => reads_query _ _
    · simp only [hidentity, Bool.not_false, if_true]
      exact reads_throw _
  refine Reads.bind (reads_query _ _) fun metadata => ?_
  cases metadata with
  | none => exact reads_throw _
  | some metadata => exact hrows metadata

end Lora.HistoryStore
