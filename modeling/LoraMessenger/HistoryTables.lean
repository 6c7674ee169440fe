/-
The history database.

The timeline, its mentions, the ledger and the counters are kept in four tables
whose declared constraints SQLite enforces; 64-bit counters are big-endian blobs,
so that their order is the order of the numbers.  Older databases have fewer
tables, and another one for the timeline.

Whatever `readSnapshot` finds wrong in a row has the same error, so that a row
is decoded first (`readPost`, `readSeenMessage`) and the checks that compare rows
are those of `StoredHistory.readSnapshot`.
-/
import LoraMessenger.History
import LoraMessenger.Transactions

namespace Lora.HistoryStore

open Crash Sql

def kHistoryApplicationId : ℕ := 0x4c4d5347
def kHistorySchemaVersion : ℕ := 3

inductive SqliteHistoryWritePoint where
  | migrationPostsRenamed
  | migrationSeenTableCreated
  | snapshotTimelineWritten
  | snapshotDedupeWritten
deriving DecidableEq

/-! ### The tables -/

inductive MetaKey where
  | installId
  | lastAssignedOrder
  | lastSeenOrder
  | dedupeInitialized
deriving DecidableEq

structure MetaRow where
  key : MetaKey
  value : Bytes
deriving DecidableEq

/-- A row of `posts` in the first schema. -/
structure PostRowV1 where
  messageId : Bytes
  senderId : Bytes
  senderSequence : Bytes
  senderUserId : Bytes
  body : Bytes
  replyTo : Option Bytes
  receivedOrder : Bytes
  origin : ℤ
  localState : Option ℤ
deriving DecidableEq

structure PostRow extends PostRowV1 where
  senderTime : Option Int64
deriving DecidableEq

structure MentionRow where
  messageId : Bytes
  ordinal : ℤ
  mentionedInstallId : Bytes
deriving DecidableEq

structure SeenMessageRow where
  messageId : Bytes
  protocolVersion : ℤ
  encodedPost : Bytes
  seenOrder : Bytes
deriving DecidableEq

/-- `X'0000000000000000'`. -/
def zeroOrder : Bytes := List.replicate 8 0

/-- The constraints of `meta`; `v3` tells the two schemas apart. -/
def metaRules (v3 : Bool) : Rules MetaRow where
  check row :=
    match row.key with
    | .installId => row.value.length = 16
    | .lastAssignedOrder => row.value.length = 8
    | .lastSeenOrder => v3 && row.value.length = 8
    | .dedupeInitialized => v3 && (row.value = [0] || row.value = [1])
  distinct other row := other.key ≠ row.key

def replyAllowed (messageId : Bytes) : Option Bytes → Bool
  | none => true
  | some replyTo => replyTo.length = 16 && replyTo ≠ messageId

/-- The check on a local post whose state is null has no truth value, and passes. -/
def localStateAllowed (origin : ℤ) (localState : Option ℤ) : Bool :=
  origin = 0 && localState = none ||
    origin = 1 && localState.all fun state => 0 ≤ state && state ≤ 3

def PostRowV1.check (row : PostRowV1) : Bool :=
  row.messageId.length = 16 && row.senderId.length = 16 &&
    (row.senderSequence.length = 8 && row.senderSequence ≠ zeroOrder) &&
    (1 ≤ row.senderUserId.length && row.senderUserId.length ≤ 24) &&
    (1 ≤ row.body.length && row.body.length ≤ 160) &&
    replyAllowed row.messageId row.replyTo &&
    (row.receivedOrder.length = 8 && row.receivedOrder ≠ zeroOrder) &&
    localStateAllowed row.origin row.localState

def postRulesV1 : Rules PostRowV1 where
  check row := row.check
  distinct other row := other.messageId ≠ row.messageId && other.receivedOrder ≠ row.receivedOrder

def postRules : Rules PostRow where
  check row := row.check
  distinct other row := other.messageId ≠ row.messageId && other.receivedOrder ≠ row.receivedOrder

def mentionRules : Rules MentionRow where
  check row := 0 ≤ row.ordinal && row.ordinal ≤ 3 && row.mentionedInstallId.length = 16
  distinct other row :=
    other.messageId ≠ row.messageId ||
      other.ordinal ≠ row.ordinal && other.mentionedInstallId ≠ row.mentionedInstallId

def seenMessageRules : Rules SeenMessageRow where
  check row :=
    row.messageId.length = 16 && row.protocolVersion = 1 &&
      (46 ≤ row.encodedPost.length && row.encodedPost.length ≤ 316) &&
      (row.seenOrder.length = 8 && row.seenOrder ≠ zeroOrder)
  distinct other row := other.messageId ≠ row.messageId && other.seenOrder ≠ row.seenOrder

structure MetaTable where
  v3 : Bool
  rows : List MetaRow
deriving DecidableEq

inductive PostsTable where
  | v1 (rows : List PostRowV1)
  | v2 (rows : List PostRow)
deriving DecidableEq

/-- The file of the history.  The tables `meta_v2` and `posts_v1` are there in the
middle of a migration only. -/
structure Database where
  present : Bool := true
  applicationId : ℕ := kHistoryApplicationId
  userVersion : ℕ
  metadata : Option MetaTable
  metadataV2 : Option (List MetaRow) := none
  posts : Option PostsTable
  postsV1 : Option (List PostRowV1) := none
  mentions : Option (List MentionRow) := none
  seenMessages : Option (List SeenMessageRow) := none
deriving DecidableEq

namespace Database

def metaRows (db : Database) : List MetaRow := (db.metadata.map MetaTable.rows).getD []

def postRows (db : Database) : List PostRow :=
  match db.posts with
  | some (.v2 rows) => rows
  | _ => []

def mentionRows (db : Database) : List MentionRow := db.mentions.getD []

def seenMessageRows (db : Database) : List SeenMessageRow := db.seenMessages.getD []

end Database

def encodeUint64 (value : ℕ) : Bytes := BigEndian.toBytes 8 value

def decodeUint64 (value : Bytes) : Option ℕ :=
  if value.length = 8 then some (BigEndian.ofBytes value) else none

def readUuid (value : Bytes) : Option Uuid :=
  if h : value.length = 16 then some ⟨value, h⟩ else none

def readText (maximumBytes : ℕ) (value : Bytes) : Option Bytes :=
  if value = [] ∨ value.length > maximumBytes ∨ 0 ∈ value then none else some value

/-! ### Reading -/

structure StoredMetadata where
  dedupeInitialized : Bool
  installId : Bytes
  lastAssignedOrder : ℕ
  lastSeenOrder : ℕ
deriving DecidableEq

def metaValue (rows : List MetaRow) (key : MetaKey) : Option Bytes :=
  (rows.find? fun row => row.key = key).map MetaRow.value

/-- `load_metadata`; `none` if the history is not initialized.  Keys are unique,
so that the loop over the rows meets each of them once at most. -/
def loadMetadata (db : Database) : Except HistoryError (Option StoredMetadata) :=
  if db.metaRows = [] then
    if db.postRows ≠ [] ∨ db.seenMessageRows ≠ [] then .error .invalidData else .ok none
  else
    match metaValue db.metaRows .dedupeInitialized, metaValue db.metaRows .installId,
      (metaValue db.metaRows .lastAssignedOrder).bind decodeUint64,
      (metaValue db.metaRows .lastSeenOrder).bind decodeUint64 with
    | some [flag], some installId, some lastAssignedOrder, some lastSeenOrder =>
      if flag ≠ 0 ∧ flag ≠ 1 then .error .invalidData
      else if installId.length ≠ 16 then .error .invalidData
      else if db.metaRows.length ≠ 4 then .error .invalidData
      else .ok (some ⟨flag = 1, installId, lastAssignedOrder, lastSeenOrder⟩)
    | _, _, _, _ => .error .invalidData

/-- The loop over the mentions of one post, in the order of their ordinals. -/
def readMentions : (count : ℕ) → List MentionRow → Option (List Uuid)
  | _, [] => some []
  | count, row :: rest =>
    if count ≥ kMaxMentions ∨ row.ordinal ≠ count then none
    else
      match readUuid row.mentionedInstallId, readMentions (count + 1) rest with
      | some mention, some mentions => some (mention :: mentions)
      | _, _ => none

def mentionsOf (rows : List MentionRow) (messageId : Bytes) : List MentionRow :=
  orderBy (fun left right => left.ordinal ≤ right.ordinal)
    (rows.filter fun row => row.messageId = messageId)

def readOrigin (origin : ℤ) (localState : Option ℤ) : Option EntryOrigin :=
  if origin = 0 then
    if localState = none then some .receivedOrigin else none
  else if origin = 1 then
    match localState with
    | some 0 => some (.localDelivery .queued)
    | some 1 => some (.localDelivery .broadcast)
    | some 2 => some (.localDelivery .failed)
    | some 3 => some (.localDelivery .unknown)
    | _ => none
  else none

/-- An optional column. -/
def readReply : Option Bytes → Option (Option Uuid)
  | none => some none
  | some value => (readUuid value).map some

/-- A row of `posts` as an entry of the timeline. -/
def readPost (mentions : List MentionRow) (row : PostRow) : Option TimelineEntry := do
  let messageId ← readUuid row.messageId
  let senderId ← readUuid row.senderId
  let senderSequence ← decodeUint64 row.senderSequence
  let senderUserId ← readText kMaxUserIdBytes row.senderUserId
  let body ← readText kMaxPostBodyBytes row.body
  let receivedOrder ← decodeUint64 row.receivedOrder
  let replyTo ← readReply row.replyTo
  let mentions ← readMentions 0 (mentionsOf mentions row.messageId)
  match PostPayload.create
    { messageId, senderId, senderSequence := senderSequence.toUInt64, senderUserId, body, mentions,
      replyTo, senderTime := row.senderTime } with
  | .error _ => none
  | .ok post =>
    let origin ← readOrigin row.origin row.localState
    pure ⟨post, receivedOrder, origin⟩

def readSeenMessage (row : SeenMessageRow) : Option SeenMessageRecord := do
  let messageId ← readUuid row.messageId
  let seenOrder ← decodeUint64 row.seenOrder
  if row.protocolVersion ≠ 1 then none
  else
    match MessageId.fromUuid messageId with
    | .error _ => none
    | .ok messageId => pure ⟨messageId, seenOrder, row.encodedPost⟩

def Database.orderedPosts (db : Database) : List PostRow :=
  orderBy (fun left right => blobLe left.receivedOrder right.receivedOrder) db.postRows

def Database.orderedSeenMessages (db : Database) : List SeenMessageRow :=
  orderBy (fun left right => blobLe left.seenOrder right.seenOrder) db.seenMessageRows

def readSnapshot (db : Database) (metadata : StoredMetadata) (identity : Identity) :
    Except HistoryError HistorySnapshot :=
  match db.orderedPosts.mapM (readPost db.mentionRows), db.orderedSeenMessages.mapM readSeenMessage,
    readUuid metadata.installId with
  | some entries, some seenMessages, some installId =>
    StoredHistory.readSnapshot
      ⟨installId, metadata.dedupeInitialized,
        { entries, lastAssignedOrder := metadata.lastAssignedOrder, seenMessages
          lastSeenOrder := metadata.lastSeenOrder }⟩ identity
  | _, _, _ => .error .invalidData

def identityMatches (metadata : StoredMetadata) (identity : Identity) : Bool :=
  metadata.installId = identity.installId.uuid.bytes

/-! ### Checks on the database as a whole -/

def errorForResult (fallback : HistoryError) (corrupt : Bool) : HistoryError :=
  if corrupt then .corruptDatabase else fallback

namespace Database

/-- `PRAGMA integrity_check` goes through the constraints of every table. -/
def integrityCheck (db : Database) : Bool :=
  db.metadata.all (fun table => (metaRules table.v3).holds table.rows) &&
    (match db.posts with
      | none => true
      | some (.v1 rows) => postRulesV1.holds rows
      | some (.v2 rows) => postRules.holds rows) &&
    mentionRules.holds db.mentionRows && seenMessageRules.holds db.seenMessageRows

def hasPost (db : Database) (messageId : Bytes) : Bool :=
  db.postRows.any fun row => row.messageId = messageId

/-- `PRAGMA foreign_key_check`. -/
def foreignKeyCheck (db : Database) : Bool :=
  db.mentionRows.all fun row => db.hasPost row.messageId

def isNewDatabase (db : Database) : Bool :=
  db.applicationId = 0 && db.userVersion = 0 && db.metadata = none && db.metadataV2 = none &&
    db.posts = none && db.postsV1 = none && db.mentions = none && db.seenMessages = none

def hasPostsV1 (db : Database) : Bool :=
  match db.posts with
  | some (.v1 _) => true
  | _ => false

def hasPostsV2 (db : Database) : Bool :=
  match db.posts with
  | some (.v2 _) => true
  | _ => false

theorem hasPostsV2_iff {db : Database} : db.hasPostsV2 ↔ ∃ rows, db.posts = some (.v2 rows) := by
  rw [hasPostsV2]
  rcases db.posts with _ | rows | rows <;> simp

end Database

/-- `verify_v1_schema`, `verify_v2_schema` and `verify_v3_schema`: the tables of
this version, and no others. -/
def verifySchema (version : ℕ) (db : Database) : Except HistoryError Unit :=
  if db.metadata.map MetaTable.v3 = some (version = 3 : Bool) ∧ db.metadataV2 = none ∧
      (if version = 1 then db.hasPostsV1 else db.hasPostsV2) ∧ db.postsV1 = none ∧
      db.mentions.isSome = (2 ≤ version : Bool) ∧ db.seenMessages.isSome = (version = 3 : Bool) then
    .ok ()
  else .error .invalidData

def runIntegrityChecks (db : Database) : Except HistoryError Unit :=
  if !db.integrityCheck then .error .corruptDatabase
  else if !db.foreignKeyCheck then .error .invalidData
  else .ok ()

end Lora.HistoryStore
