/-
Saving a history and loading it again.

A snapshot that passes the checks is written as a whole: all its rows respect
the constraints, so that only the stored orders, the identity, a failpoint or a
failure of the database can stop a save.

* `applyAll_writeSnapshot` — what the statements of a save amount to;
* `represents_written` — the database then holds the snapshot;
* `loaded_represents` — what a database holds is what is loaded from it.
-/
import LoraMessenger.HistoryRows
import LoraMessenger.Reconcile
import Mathlib.Data.List.Flatten

namespace Lora.HistoryStore

open Crash Sql

/-- The database after a save. -/
def written (db : Database) (snapshot : HistorySnapshot) (identity : Identity) : Database :=
  { db with
    metadata := some ⟨true, metaRows identity.installId.uuid snapshot.lastAssignedOrder
      snapshot.lastSeenOrder 1⟩
    posts := some (.v2 (snapshot.entries.map postRow))
    mentions := some (snapshot.entries.flatMap mentionRows)
    seenMessages := some (snapshot.seenMessages.map seenMessageRow) }

/-- The tables of a database that passes the checks before an operation. -/
structure Current (db : Database) : Prop where
  applicationId : db.applicationId = kHistoryApplicationId
  userVersion : db.userVersion = kHistorySchemaVersion
  metadata : ∃ rows, db.metadata = some ⟨true, rows⟩
  metadataV2 : db.metadataV2 = none
  posts : ∃ rows, db.posts = some (.v2 rows)
  postsV1 : db.postsV1 = none
  mentions : ∃ rows, db.mentions = some rows
  seenMessages : ∃ rows, db.seenMessages = some rows
  foreignKeyCheck : db.foreignKeyCheck

theorem current_of_preflight {db : Database} (h : preflight db = .ok ()) : Current db := by
  obtain ⟨⟨⟩, hheader, h⟩ := Guard.bind_eq_ok.mp h
  obtain ⟨⟨⟩, hschema, h⟩ := Guard.bind_eq_ok.mp h
  simp only [checkHeader, Guard.ite_error_eq_ok, not_not, and_true] at hheader
  simp only [verifySchema, Guard.ite_ok_eq_ok, and_true] at hschema
  simp only [runIntegrityChecks, Guard.ite_error_eq_ok, and_true] at h
  obtain ⟨hmetadata, hmetadataV2, hposts, hpostsV1, hmentions, hseen⟩ := hschema
  obtain ⟨⟨v3, rows⟩, hmetadata, hv3⟩ := Option.map_eq_some_iff.mp hmetadata
  obtain rfl : v3 = true := hv3
  refine ⟨hheader.1, hheader.2, ⟨rows, hmetadata⟩, hmetadataV2, Database.hasPostsV2_iff.mp hposts,
    hpostsV1, Option.isSome_iff_exists.mp hmentions, Option.isSome_iff_exists.mp hseen, ?_⟩
  simpa using h.2

section Inserts

variable {ρ : Type} {insertRow : ρ → Database → Option Database} {error : HistoryError}

/-- Rows that respect the rules of their table are all inserted. -/
theorem applyAll_inserts (rules : Rules ρ) (put : List ρ → Database) (rows : List ρ)
    {added : List ρ}
    (hinsert : ∀ row ∈ added, ∀ rows, insertRow row (put rows) = (insert rules row rows).map put)
    (h : rules.holds (rows ++ added)) :
    applyAll (added.map fun row => exec error (insertRow row)) (put rows) =
      .ok (put (rows ++ added)) := by
  induction added generalizing rows with
  | nil => simp [applyAll]
  | cons row added ih =>
    obtain ⟨hrow, hadded⟩ := List.forall_mem_cons.mp hinsert
    rw [List.append_cons] at h ⊢
    have hnew := insert_eq (Rules.holds_sublist h (List.sublist_append_left _ added))
    have hstep : (exec error (insertRow row)).effect (put rows) = .ok (put (rows ++ [row])) := by
      simp only [exec, hrow rows, hnew, Option.map_some]
    rw [List.map_cons, applyAll_cons hstep, ih _ hadded h]

end Inserts

def putEntries (db : Database) (entries : List TimelineEntry) : Database :=
  { db with
    posts := some (.v2 (entries.map postRow))
    mentions := some (entries.flatMap mentionRows) }

/-- A post and its mentions. -/
theorem applyAll_insertEntry {db : Database} {before : List TimelineEntry} {entry : TimelineEntry}
    (hposts : postRules.holds ((before ++ [entry]).map postRow))
    (hmentions : mentionRules.holds ((before ++ [entry]).flatMap mentionRows)) :
    applyAll (insertEntry entry) (putEntries db before) =
      .ok (putEntries db (before ++ [entry])) := by
  rw [List.map_append, List.map_singleton] at hposts
  rw [List.flatMap_append, List.flatMap_singleton] at hmentions
  have hpost : (exec .writeFailed (Database.insertPost (postRow entry))).effect
      (putEntries db before) =
      .ok { putEntries db (before ++ [entry]) with
        mentions := some (before.flatMap mentionRows) } := by
    simp only [exec, Database.insertPost, putEntries, insert_eq hposts, Option.map_some,
      List.map_append, List.map_singleton]
  have hmention : ∀ row ∈ mentionRows entry, ∀ rows : List MentionRow,
      Database.insertMention row { putEntries db (before ++ [entry]) with mentions := some rows } =
        (insert mentionRules row rows).map fun rows =>
          { putEntries db (before ++ [entry]) with mentions := some rows } := by
    intro row hrow rows
    have hthere : Database.hasPost
        { putEntries db (before ++ [entry]) with mentions := some rows } row.messageId := by
      rw [Database.hasPost, List.any_eq_true]
      refine ⟨postRow entry, by simp [Database.postRows, putEntries], ?_⟩
      rw [decide_eq_true_eq]
      exact (messageId_mentionRows hrow).symm
    simp only [Database.insertMention, hthere, if_true]
  rw [insertEntry, applyAll_cons hpost, applyAll_inserts mentionRules _ _ hmention hmentions]
  simp [putEntries]

theorem applyAll_insertEntries (db : Database) (before : List TimelineEntry)
    {entries : List TimelineEntry}
    (hposts : postRules.holds ((before ++ entries).map postRow))
    (hmentions : mentionRules.holds ((before ++ entries).flatMap mentionRows)) :
    applyAll (entries.flatMap insertEntry) (putEntries db before) =
      .ok (putEntries db (before ++ entries)) := by
  induction entries generalizing before with
  | nil => simp [applyAll]
  | cons entry entries ih =>
    rw [List.append_cons] at hposts hmentions ⊢
    have hkept : (before ++ [entry]).Sublist (before ++ [entry] ++ entries) :=
      List.sublist_append_left _ entries
    have hfirst : applyAll (insertEntry entry) (putEntries db before) = _ :=
      applyAll_insertEntry (Rules.holds_sublist hposts (hkept.map _))
        (Rules.holds_sublist hmentions (hkept.flatMap _))
    rw [List.flatMap_cons, applyAll_append, hfirst]
    exact ih _ hposts hmentions

/-- What a save amounts to: the snapshot replaces all rows, unless what is stored
or a failpoint forbids it. -/
theorem applyAll_writeSnapshot {failpoints : Failpoints} {db : Database}
    {window : MessageDedupeWindow} {snapshot : HistorySnapshot} {identity : Identity}
    (hcurrent : Current db) (hvalid : SnapshotValid window snapshot identity)
    (hsized : Sized snapshot) :
    applyAll (writeSnapshot failpoints snapshot identity) db =
      match checkStored snapshot identity db with
      | .error error => .error error
      | .ok _ =>
        if failpoints .snapshotTimelineWritten || failpoints .snapshotDedupeWritten then
          .error .writeFailed
        else .ok (written db snapshot identity) := by
  obtain ⟨metadata, hmetadata⟩ := hcurrent.metadata
  obtain ⟨posts, hposts⟩ := hcurrent.posts
  obtain ⟨mentions, hmentions⟩ := hcurrent.mentions
  obtain ⟨seenMessages, hseenMessages⟩ := hcurrent.seenMessages
  -- No mention is left without its post.
  have hcascade : mentions.filter (fun row => !db.hasPost row.messageId) = [] := by
    refine List.filter_eq_nil_iff.mpr fun row hrow => ?_
    have hforeign := hcurrent.foreignKeyCheck
    rw [Database.foreignKeyCheck, Database.mentionRows, hmentions, Option.getD_some,
      List.all_eq_true] at hforeign
    simp [hforeign row hrow]
  cases hcheck : checkStored snapshot identity db with
  | error error => simp [writeSnapshot, applyAll, hcheck, Except.map]
  | ok _ =>
    let cleared : Database :=
      { db with metadata := some ⟨true, []⟩, posts := some (.v2 []), mentions := some []
                seenMessages := some [] }
    let metadataRows := metaRows identity.installId.uuid snapshot.lastAssignedOrder
      snapshot.lastSeenOrder 1
    have hclear (rest : List Step) : applyAll
        (⟨fun db => (checkStored snapshot identity db).map fun _ =>
          db, errorForResult .readFailed⟩ ::
          exec .writeFailed Database.deletePosts :: exec .writeFailed Database.deleteSeenMessages ::
          exec .writeFailed Database.deleteMeta :: rest) db = applyAll rest cleared := by
      simp [applyAll, hcheck, Except.map, exec, Database.deletePosts, Database.deleteSeenMessages,
        Database.deleteMeta, hposts, hmentions, hseenMessages, hmetadata, hcascade, cleared]
    have hmeta : applyAll (metadataRows.map fun row => exec .writeFailed (Database.insertMeta row))
        cleared = .ok { cleared with metadata := some ⟨true, metadataRows⟩ } :=
      applyAll_inserts (metaRules true) (fun rows => { cleared with metadata := some ⟨true, rows⟩ })
        [] (fun _ _ _ => rfl) (holds_metaRows _ _ _ (.inr rfl))
    have hentries : applyAll (snapshot.entries.flatMap insertEntry)
        { cleared with metadata := some ⟨true, metadataRows⟩ } = .ok (putEntries
          { cleared with metadata := some ⟨true, metadataRows⟩ } snapshot.entries) :=
      applyAll_insertEntries { cleared with metadata := some ⟨true, metadataRows⟩ } []
        (holds_postRows hvalid.stamped hsized.assigned) (holds_mentionRows hvalid.stamped)
    have hseen : applyAll (snapshot.seenMessages.map fun record =>
          exec .writeFailed (Database.insertSeenMessage (seenMessageRow record)))
        (putEntries { cleared with metadata := some ⟨true, metadataRows⟩ } snapshot.entries) =
          .ok (written db snapshot identity) := by
      have hrows := holds_seenMessageRows (hvalid.last ▸ hsized.seen)
      rw [hvalid.records] at hrows
      have hinserts : applyAll ((snapshot.seenMessages.map seenMessageRow).map fun row =>
          exec .writeFailed (Database.insertSeenMessage row)) _ = _ :=
        applyAll_inserts seenMessageRules (fun rows =>
          { putEntries { cleared with metadata := some ⟨true, metadataRows⟩ } snapshot.entries with
            seenMessages := some rows }) [] (fun _ _ _ => rfl) hrows
      rw [List.map_map] at hinserts
      exact hinserts
    rw [writeSnapshot, applyAll_append, applyAll_append, applyAll_append, hclear, hmeta]
    dsimp only
    rw [hentries]
    dsimp only
    cases htimeline : failpoints .snapshotTimelineWritten with
    | true => simp [applyAll, failpoint, htimeline]
    | false =>
      cases hdedupe : failpoints .snapshotDedupeWritten <;>
        simp [applyAll, failpoint, htimeline, hseen, hdedupe]

/-! ### Loading what was saved -/

section Saved

variable {failpoints : Failpoints} {db left : Database} {window : MessageDedupeWindow}
  {snapshot : HistorySnapshot} {identity : Identity}

theorem represents_written (hcurrent : Current db) (snapshot : HistorySnapshot)
    (identity : Identity) :
    Represents (written db snapshot identity) ⟨identity.installId.uuid, true, snapshot⟩ where
  applicationId := hcurrent.applicationId
  userVersion := hcurrent.userVersion
  metadata := ⟨_, rfl, List.Perm.refl _⟩
  metadataV2 := hcurrent.metadataV2
  posts := ⟨_, rfl, List.Perm.refl _⟩
  postsV1 := hcurrent.postsV1
  mentions := ⟨_, rfl, List.Perm.refl _⟩
  seenMessages := ⟨_, rfl, List.Perm.refl _⟩

/-- What is loaded from a database that holds a valid snapshot. -/
theorem loaded_represents
    (h : Represents db ⟨identity.installId.uuid, true, snapshot⟩)
    (hvalid : SnapshotValid window snapshot identity) (hsized : Sized snapshot) :
    loaded failpoints identity db = .ok (snapshot, db) := by
  have hordered := ordered_of_valid hvalid hsized
  have hpreflight : preflight db = .ok () := h.preflight hordered hvalid.records hvalid.last
  have hidentity : identityMatches (metadataOf ⟨identity.installId.uuid, true, snapshot⟩)
      identity := by
    simp [identityMatches, metadataOf]
  have hread : readSnapshot db (metadataOf ⟨identity.installId.uuid, true, snapshot⟩) identity =
      .ok snapshot := by
    rw [h.readSnapshot hordered, StoredHistory.readSnapshot_of_valid rfl hvalid]
  have hstored : stored identity db = .ok (snapshot, true) := by
    rw [stored, hpreflight, h.loadMetadata hsized]
    show (if !identityMatches _ _ then _ else readSnapshot _ _ _ >>= _) = _
    rw [hidentity, hread]
    rfl
  rw [loaded, hstored]
  rfl

/-- What a successful save has passed. -/
structure SaveChecks (failpoints : Failpoints) (candidate : HistorySnapshot) (identity : Identity)
    (db : Database) : Prop where
  valid : ∃ window, SnapshotValid window candidate identity
  sized : Sized candidate
  preflight : preflight db = .ok ()
  stored : checkStored candidate identity db = .ok ()
  failpoints : (failpoints .snapshotTimelineWritten || failpoints .snapshotDedupeWritten) = false

theorem SaveChecks.current {candidate : HistorySnapshot}
    (h : SaveChecks failpoints candidate identity db) : Current db :=
  current_of_preflight h.preflight

theorem sized_of_reconcile {candidate : HistorySnapshot} (hsized : Sized snapshot)
    (h : reconcileSnapshotDedupe snapshot = .ok candidate) : Sized candidate := by
  obtain ⟨window, completed, ⟨-, hlast, -⟩, hrun, rfl⟩ := reconcileSnapshotDedupe_eq_ok.mp h
  exact ⟨hsized.assigned, reconcileEntries_sized hrun (hlast ▸ hsized.seen)⟩

/-- A save is done if the snapshot, the database and what it holds pass the checks. -/
theorem saved_eq_ok (hsized : Sized snapshot) :
    saved failpoints snapshot identity db = .ok left ↔
      ∃ candidate, reconcileSnapshotDedupe snapshot = .ok candidate ∧
        SaveChecks failpoints candidate identity db ∧ left = written db candidate identity := by
  rw [saved, Guard.bind_eq_ok]
  refine exists_congr fun candidate => and_congr_right fun hreconcile => ?_
  have hsized' := sized_of_reconcile hsized hreconcile
  rw [Guard.ite_error_eq_ok, not_not, validateSnapshot_eq_none, Guard.bind_eq_ok]
  constructor
  · rintro ⟨⟨window, hvalid⟩, ⟨⟩, hpreflight, happly⟩
    rw [applyAll_writeSnapshot (current_of_preflight hpreflight) hvalid hsized'] at happly
    cases hstored : checkStored candidate identity db with
    | error error => simp [hstored] at happly
    | ok _ =>
      simp only [hstored, Guard.ite_error_eq_ok, Except.ok.injEq, Bool.not_eq_true] at happly
      exact ⟨⟨⟨window, hvalid⟩, hsized', hpreflight, hstored, happly.1⟩, happly.2.symm⟩
  · rintro ⟨hchecks, rfl⟩
    obtain ⟨window, hvalid⟩ := hchecks.valid
    refine ⟨⟨window, hvalid⟩, (), hchecks.preflight, ?_⟩
    rw [applyAll_writeSnapshot hchecks.current hvalid hsized', hchecks.stored]
    simp only [hchecks.failpoints, Bool.false_eq_true, if_false]

end Saved

/-! ### Stored orders -/

theorem encode_of_decode {value : Bytes} {order : ℕ} (h : decodeUint64 value = some order) :
    value = encodeUint64 order := by
  rw [decodeUint64] at h
  split at h
  · rename_i hlength
    cases h
    rw [encodeUint64, ← hlength, BigEndian.toBytes_ofBytes]
  · cases h

/-- A ledger that matches consists of the same rows. -/
theorem eq_of_ledgerMatches {rows : List SeenMessageRow} {records : List SeenMessageRecord}
    (hversion : ∀ row ∈ rows, row.protocolVersion = 1) (h : ledgerMatchesSnapshot rows records) :
    rows = records.map seenMessageRow := by
  induction rows generalizing records with
  | nil =>
    cases records with
    | nil => rfl
    | cons record records => simp [ledgerMatchesSnapshot] at h
  | cons row rows ih =>
    cases records with
    | nil => simp [ledgerMatchesSnapshot] at h
    | cons record records =>
      rw [List.forall_mem_cons] at hversion
      simp only [ledgerMatchesSnapshot, rowMatches, Bool.and_eq_true, decide_eq_true_eq] at h
      obtain ⟨⟨⟨⟨-, horder⟩, hid⟩, hbytes⟩, hrest⟩ := h
      rw [List.map_cons, ← ih hversion.2 hrest]
      refine congrArg (· :: rows) ?_
      rcases row with ⟨messageId, protocolVersion, encodedPost, seenOrder⟩
      rw [seenMessageRow, SeenMessageRow.mk.injEq]
      exact ⟨hid, hversion.1, hbytes, encode_of_decode horder⟩

/-- The stored orders do not turn back, and the ledger changes only together with
its order. -/
def Advances (db left : Database) : Prop :=
  ∀ metadata, loadMetadata db = .ok (some metadata) →
    ∃ metadata', loadMetadata left = .ok (some metadata') ∧
      metadata.lastAssignedOrder ≤ metadata'.lastAssignedOrder ∧
      metadata.lastSeenOrder ≤ metadata'.lastSeenOrder ∧
      (metadata.lastSeenOrder = metadata'.lastSeenOrder →
        db.orderedSeenMessages = left.orderedSeenMessages)

theorem Advances.refl (db : Database) : Advances db db := fun metadata hmetadata =>
  ⟨metadata, hmetadata, Nat.le_refl _, Nat.le_refl _, fun _ => rfl⟩

theorem Advances.trans {first second third : Database} (h : Advances first second)
    (h' : Advances second third) : Advances first third := by
  intro metadata hmetadata
  obtain ⟨metadata', hmetadata', hassigned, hseen, hledger⟩ := h metadata hmetadata
  obtain ⟨metadata'', hmetadata'', hassigned', hseen', hledger'⟩ := h' metadata' hmetadata'
  refine ⟨metadata'', hmetadata'', Nat.le_trans hassigned hassigned', Nat.le_trans hseen hseen', ?_⟩
  intro heq
  exact (hledger (by omega)).trans (hledger' (by omega))

theorem protocolVersion_of_preflight {db : Database} (h : preflight db = .ok ()) :
    ∀ row ∈ db.orderedSeenMessages, row.protocolVersion = 1 := by
  obtain ⟨⟨⟩, -, h⟩ := Guard.bind_eq_ok.mp h
  obtain ⟨⟨⟩, -, h⟩ := Guard.bind_eq_ok.mp h
  rw [runIntegrityChecks, Guard.ite_error_eq_ok] at h
  have hholds : seenMessageRules.holds db.seenMessageRows := by
    have hintegrity : db.integrityCheck := by simpa using h.1
    rw [Database.integrityCheck, Bool.and_eq_true] at hintegrity
    exact hintegrity.2
  intro row hrow
  rw [Database.orderedSeenMessages, orderBy, List.mem_insertionSort] at hrow
  have hcheck := (Rules.holds_iff.mp hholds).1 row hrow
  simp only [seenMessageRules, Bool.and_eq_true, decide_eq_true_eq] at hcheck
  exact hcheck.1.1.2

section Advances

variable {failpoints : Failpoints} {db left : Database} {candidate : HistorySnapshot}
  {identity : Identity}

theorem loadMetadata_written (h : SaveChecks failpoints candidate identity db) :
    loadMetadata (written db candidate identity) = .ok (some
      ⟨true, identity.installId.uuid.bytes, candidate.lastAssignedOrder,
        candidate.lastSeenOrder⟩) :=
  (represents_written h.current candidate identity).loadMetadata h.sized

theorem orderedSeenMessages_written (h : SaveChecks failpoints candidate identity db) :
    (written db candidate identity).orderedSeenMessages =
      candidate.seenMessages.map seenMessageRow := by
  obtain ⟨window, hvalid⟩ := h.valid
  exact (represents_written h.current candidate identity).orderedSeenMessages
    (ordered_of_valid hvalid h.sized)

theorem advances_written (h : SaveChecks failpoints candidate identity db) :
    Advances db (written db candidate identity) := by
  intro metadata hmetadata
  refine ⟨_, loadMetadata_written h, ?_⟩
  have hstored := h.stored
  simp only [checkStored, hmetadata, Guard.ite_error_eq_ok, not_or, not_lt, and_true] at hstored
  obtain ⟨-, ⟨hassigned, hseen⟩, hledger⟩ := hstored
  refine ⟨hassigned, hseen, fun heq => ?_⟩
  have hmatches : ledgerMatchesSnapshot db.orderedSeenMessages candidate.seenMessages := by
    by_contra hdiffers
    exact hledger ⟨heq.symm, by simpa using hdiffers⟩
  rw [orderedSeenMessages_written h]
  exact eq_of_ledgerMatches (protocolVersion_of_preflight h.preflight) hmatches

end Advances

end Lora.HistoryStore
