/-
The rows of a history.

A history is stored as rows in no particular order.  Reading puts them in order
again: the posts by their received order, the mentions of a post by their
ordinals, the ledger by its seen orders.

* `readPost_postRow`, `readSeenMessage_row` — a row is read as what it was
  written for;
* `Represents` — a database whose rows are those of a history, in any order;
* `Represents.readSnapshot` — reading it is reading the history;
* `Represents.preflight` — the rows of a valid history respect all constraints.
-/
import LoraMessenger.HistoryStore

namespace Lora.HistoryStore

open Crash Sql

/-! ### Columns -/

theorem decodeUint64_encode {value : ℕ} (h : value ≤ kMaximumOrder) :
    decodeUint64 (encodeUint64 value) = some value := by
  have hlt : value < 256 ^ 8 := by
    rw [kMaximumOrder] at h
    omega
  rw [decodeUint64, encodeUint64, if_pos (BigEndian.length_toBytes 8 value),
    BigEndian.ofBytes_toBytes hlt]

theorem ofBytes_encode {value : ℕ} (h : value ≤ kMaximumOrder) :
    BigEndian.ofBytes (encodeUint64 value) = value := by
  rw [encodeUint64, BigEndian.ofBytes_toBytes]
  rw [kMaximumOrder] at h
  omega

theorem length_encode (value : ℕ) : (encodeUint64 value).length = 8 :=
  BigEndian.length_toBytes 8 value

theorem encode_ne_zeroOrder {value : ℕ} (hpositive : 0 < value) (h : value ≤ kMaximumOrder) :
    encodeUint64 value ≠ zeroOrder := by
  intro heq
  have hzero : BigEndian.ofBytes zeroOrder = 0 := by decide
  rw [← heq, ofBytes_encode h] at hzero
  omega

/-- Rows with increasing orders are selected in that order. -/
theorem orderBy_encoded {α ρ : Type} {records : List α} {toRow : α → ρ} {key : ρ → Bytes}
    {order : α → ℕ} {rows : List ρ}
    (hkey : ∀ record, key (toRow record) = encodeUint64 (order record))
    (hperm : rows.Perm (records.map toRow)) (hincreasing : records.Pairwise (order · < order ·))
    (hbound : ∀ record ∈ records, order record ≤ kMaximumOrder) :
    orderBy (fun left right => blobLe (key left) (key right)) rows = records.map toRow := by
  have hlength : ∀ row ∈ rows, (key row).length = 8 := by
    intro row hrow
    obtain ⟨record, -, rfl⟩ := List.mem_map.mp (hperm.mem_iff.mp hrow)
    rw [hkey]
    exact length_encode _
  refine orderBy_blob hperm hlength ?_
  rw [List.pairwise_map]
  refine List.Pairwise.imp_of_mem (fun hleft hright hlt => ?_) hincreasing
  rwa [hkey, hkey, ofBytes_encode (hbound _ hleft), ofBytes_encode (hbound _ hright)]

theorem readUuid_bytes (uuid : Uuid) : readUuid uuid.bytes = some uuid :=
  dif_pos uuid.length_bytes

theorem readText_valid {value : Bytes} {maximumBytes : ℕ} {userId : Bool}
    (h : validateText value maximumBytes userId = .none) :
    readText maximumBytes value = some value := by
  have hpositive := length_pos_of_validateText h
  have hlength := length_le_of_validateText h
  rw [readText, if_neg]
  simp only [not_or, gt_iff_lt, not_lt]
  exact ⟨List.ne_nil_of_length_pos hpositive, hlength, zero_notMem_of_validateText h⟩

theorem readReply_bytes (replyTo : Option MessageId) :
    readReply (replyTo.map fun replyTo => replyTo.uuid.bytes) =
      some (replyTo.map MessageId.uuid) := by
  cases replyTo with
  | none => rfl
  | some replyTo => simp [readReply, readUuid_bytes]

theorem readMentions_rows {messageId : Bytes} {count : ℕ} {mentions : List InstallId}
    (h : count + mentions.length ≤ kMaxMentions) :
    readMentions count (mentionRowsFrom messageId count mentions) =
      some (mentions.map InstallId.uuid) := by
  induction mentions generalizing count with
  | nil => rfl
  | cons mention mentions ih =>
    rw [List.length_cons] at h
    rw [mentionRowsFrom, readMentions, if_neg (by simp only [not_or, not_not, and_true]; omega)]
    simp only [readUuid_bytes, ih (show count + 1 + mentions.length ≤ kMaxMentions by omega),
      List.map_cons]

theorem readOrigin_row (entry : TimelineEntry) :
    readOrigin (postRowV1 entry).origin (postRowV1 entry).localState = some entry.origin := by
  rcases entry with ⟨post, receivedOrder, _ | state⟩
  · rfl
  · cases state <;> rfl

theorem readPost_postRow {entry : TimelineEntry} {mentions : List MentionRow}
    (hmentions : mentionsOf mentions entry.post.messageId.uuid.bytes = mentionRows entry)
    (horder : entry.receivedOrder ≤ kMaximumOrder) :
    readPost mentions (postRow entry) = some entry := by
  have hsequence : entry.post.senderSequence.toNat ≤ kMaximumOrder := by
    have := entry.post.senderSequence.toNat_lt
    rw [kMaximumOrder]
    omega
  have hread : readMentions 0 (mentionRows entry) =
      some (entry.post.mentions.map InstallId.uuid) :=
    readMentions_rows (by rw [Nat.zero_add]; exact entry.post.mentions_length)
  have hcreate := PostPayload.create_toInput entry.post
  have horigin := readOrigin_row entry
  simp only [PostPayload.toInput] at hcreate
  simp only [readPost, postRow, postRowV1, readUuid_bytes, decodeUint64_encode hsequence,
    decodeUint64_encode horder, readText_valid entry.post.senderUserId.valid,
    readText_valid entry.post.body.valid, readReply_bytes, hmentions, hread, Option.bind_eq_bind,
    Option.bind_some, UInt64.ofNat_toNat, hcreate]
  simp only [postRowV1] at horigin
  rw [horigin]
  rfl

theorem readSeenMessage_row {record : SeenMessageRecord}
    (horder : record.seenOrder ≤ kMaximumOrder) :
    readSeenMessage (seenMessageRow record) = some record := by
  have hid : MessageId.fromUuid record.messageId.uuid = .ok record.messageId :=
    MessageId.fromUuid_eq_ok.mpr rfl
  simp [readSeenMessage, seenMessageRow, readUuid_bytes, decodeUint64_encode horder, hid]

theorem mapM_map_eq_some {α ρ : Type} {read : ρ → Option α} {toRow : α → ρ} {records : List α}
    (h : ∀ record ∈ records, read (toRow record) = some record) :
    (records.map toRow).mapM read = some records := by
  induction records with
  | nil => rfl
  | cons record records ih =>
    rw [List.forall_mem_cons] at h
    simp [h.1, ih h.2]

/-! ### Mentions -/

theorem mem_mentionRowsFrom {messageId : Bytes} {count : ℕ} {mentions : List InstallId}
    {row : MentionRow} (h : row ∈ mentionRowsFrom messageId count mentions) :
    row.messageId = messageId ∧ (count : ℤ) ≤ row.ordinal ∧
      row.ordinal < count + mentions.length ∧ row.mentionedInstallId.length = 16 ∧
      ∃ mention ∈ mentions, row.mentionedInstallId = mention.uuid.bytes := by
  induction mentions generalizing count with
  | nil => cases h
  | cons mention mentions ih =>
    rw [List.length_cons, Nat.cast_add, Nat.cast_one]
    rcases List.mem_cons.mp h with rfl | h
    · exact ⟨rfl, Int.le_refl _, by simp only; omega, mention.uuid.length_bytes, mention,
        List.mem_cons_self .., rfl⟩
    · obtain ⟨hid, hle, hlt, hlength, other, hother, heq⟩ := ih h
      exact ⟨hid, by omega, by omega, hlength, other, List.mem_cons_of_mem _ hother, heq⟩

theorem messageId_mentionRows {entry : TimelineEntry} {row : MentionRow}
    (h : row ∈ mentionRows entry) : row.messageId = entry.messageId.uuid.bytes :=
  (mem_mentionRowsFrom h).1

theorem mentionRowsFrom_increasing (messageId : Bytes) (count : ℕ) (mentions : List InstallId) :
    (mentionRowsFrom messageId count mentions).Pairwise fun left right =>
      left.ordinal.toNat < right.ordinal.toNat := by
  induction mentions generalizing count with
  | nil => exact List.Pairwise.nil
  | cons mention mentions ih =>
    refine List.Pairwise.cons (fun row hrow => ?_) (ih (count + 1))
    have := (mem_mentionRowsFrom hrow).2.1
    simp only
    omega

theorem mentionRowsFrom_distinct (messageId : Bytes) (count : ℕ) {mentions : List InstallId}
    (h : mentions.Nodup) : (mentionRowsFrom messageId count mentions).Pairwise fun other row =>
      mentionRules.distinct other row := by
  induction mentions generalizing count with
  | nil => exact List.Pairwise.nil
  | cons mention mentions ih =>
    rw [List.nodup_cons] at h
    refine List.Pairwise.cons (fun row hrow => ?_) (ih (count + 1) h.2)
    obtain ⟨-, hle, -, -, other, hother, heq⟩ := mem_mentionRowsFrom hrow
    have hordinal : (count : ℤ) ≠ row.ordinal := by omega
    have hmention : mention.uuid.bytes ≠ row.mentionedInstallId := by
      rw [heq]
      intro hsame
      exact h.1 (InstallId.uuid_inj.mp (Uuid.ext_bytes hsame) ▸ hother)
    simp [mentionRules, hordinal, hmention]

theorem uuid_bytes_inj {left right : MessageId} (h : left.uuid.bytes = right.uuid.bytes) :
    left = right := MessageId.uuid_inj.mp (Uuid.ext_bytes h)

/-- The rows of one post among those of all. -/
theorem filter_mentionRows {entries : List TimelineEntry} {entry : TimelineEntry}
    (hdistinct : (entries.map TimelineEntry.messageId).Nodup) (hentry : entry ∈ entries) :
    (entries.flatMap mentionRows).filter (fun row => row.messageId = entry.messageId.uuid.bytes) =
      mentionRows entry := by
  have hself : (mentionRows entry).filter
      (fun row => row.messageId = entry.messageId.uuid.bytes) = mentionRows entry :=
    List.filter_eq_self.mpr fun row hrow => by simpa using messageId_mentionRows hrow
  have hother {other : TimelineEntry} (hne : other.messageId ≠ entry.messageId) :
      (mentionRows other).filter (fun row => row.messageId = entry.messageId.uuid.bytes) = [] := by
    refine List.filter_eq_nil_iff.mpr fun row hrow => ?_
    rw [messageId_mentionRows hrow]
    simpa using fun heq => hne (uuid_bytes_inj heq)
  induction entries with
  | nil => cases hentry
  | cons head entries ih =>
    rw [List.map_cons, List.nodup_cons] at hdistinct
    rw [List.flatMap_cons, List.filter_append]
    rcases List.mem_cons.mp hentry with rfl | hentry
    · have hrest : (entries.flatMap mentionRows).filter
          (fun row => row.messageId = entry.messageId.uuid.bytes) = [] := by
        rw [List.filter_flatMap, List.flatMap_eq_nil_iff]
        intro other hmem
        exact hother fun heq => hdistinct.1 (heq ▸ List.mem_map_of_mem hmem)
      rw [hself, hrest, List.append_nil]
    · rw [ih hdistinct.2 hentry, hother, List.nil_append]
      exact fun heq => hdistinct.1 (heq ▸ List.mem_map_of_mem hentry)

/-- The mentions of a post are found in their order. -/
theorem mentionsOf_eq {entries : List TimelineEntry} {entry : TimelineEntry}
    {rows : List MentionRow} (hrows : rows.Perm (entries.flatMap mentionRows))
    (hdistinct : (entries.map TimelineEntry.messageId).Nodup) (hentry : entry ∈ entries) :
    mentionsOf rows entry.post.messageId.uuid.bytes = mentionRows entry := by
  have hperm := hrows.filter fun row => row.messageId = entry.messageId.uuid.bytes
  rw [filter_mentionRows hdistinct hentry] at hperm
  refine orderBy_eq (fun row => row.ordinal.toNat) hperm ?_ (mentionRowsFrom_increasing _ _ _)
  intro left hleft right hright
  have hleft := (mem_mentionRowsFrom (hperm.mem_iff.mp hleft)).2.1
  have hright := (mem_mentionRowsFrom (hperm.mem_iff.mp hright)).2.1
  rw [decide_eq_true_eq]
  omega

/-! ### Metadata -/

theorem metaValue_of_mem {rows : List MetaRow} {row : MetaRow}
    (hdistinct : (rows.map MetaRow.key).Nodup) (hrow : row ∈ rows) :
    metaValue rows row.key = some row.value := by
  rw [metaValue, Option.map_eq_some_iff]
  refine ⟨row, ?_, rfl⟩
  cases hfind : rows.find? fun other => other.key = row.key with
  | none => exact absurd (List.find?_eq_none.mp hfind row hrow) (by simp)
  | some other =>
    have hkey : other.key = row.key := by simpa using List.find?_some hfind
    rw [List.inj_on_of_nodup_map hdistinct (List.mem_of_find?_eq_some hfind) hrow hkey]

/-- The counters are found whatever the order of the rows. -/
theorem loadMetadata_eq {db : Database} {installId : Uuid}
    {lastAssignedOrder lastSeenOrder : ℕ} {flag : UInt8}
    (hrows : db.metaRows.Perm (metaRows installId lastAssignedOrder lastSeenOrder flag))
    (hassigned : lastAssignedOrder ≤ kMaximumOrder) (hseen : lastSeenOrder ≤ kMaximumOrder)
    (hflag : flag = 0 ∨ flag = 1) :
    loadMetadata db = .ok (some ⟨flag = 1, installId.bytes, lastAssignedOrder, lastSeenOrder⟩) := by
  have hdistinct : (db.metaRows.map MetaRow.key).Nodup := by
    refine (hrows.map MetaRow.key).nodup_iff.mpr ?_
    show [MetaKey.installId, .lastAssignedOrder, .lastSeenOrder, .dedupeInitialized].Nodup
    decide
  have hvalue (row : MetaRow)
      (hrow : row ∈ metaRows installId lastAssignedOrder lastSeenOrder flag) :
      metaValue db.metaRows row.key = some row.value :=
    metaValue_of_mem hdistinct (hrows.mem_iff.mpr hrow)
  have hinstall := hvalue ⟨.installId, installId.bytes⟩ (by simp [metaRows])
  have hlast := hvalue ⟨.lastAssignedOrder, encodeUint64 lastAssignedOrder⟩
    (by simp [metaRows])
  have hlastSeen := hvalue ⟨.lastSeenOrder, encodeUint64 lastSeenOrder⟩
    (by simp [metaRows])
  have hinitialized := hvalue ⟨.dedupeInitialized, [flag]⟩ (by simp [metaRows])
  have hlength : db.metaRows.length = 4 := hrows.length_eq
  have hne : db.metaRows ≠ [] := fun hnil => by simp [hnil] at hlength
  have hflag' : ¬(flag ≠ 0 ∧ flag ≠ 1) := by
    rcases hflag with rfl | rfl <;> decide
  simp only [loadMetadata, if_neg hne, hinstall, hlast, hlastSeen, hinitialized, Option.bind_some,
    decodeUint64_encode hassigned, decodeUint64_encode hseen, if_neg hflag', installId.length_bytes,
    hlength, ne_eq, not_true_eq_false, if_false]

/-! ### Constraints -/

theorem check_postRow {entry : TimelineEntry} (hpositive : 0 < entry.receivedOrder)
    (hbound : entry.receivedOrder ≤ kMaximumOrder) : (postRowV1 entry).check := by
  have hsequence : entry.post.senderSequence.toNat ≤ kMaximumOrder := by
    have := entry.post.senderSequence.toNat_lt
    rw [kMaximumOrder]
    omega
  have huser := length_pos_of_validateText entry.post.senderUserId.valid
  have huser' := length_le_of_validateText entry.post.senderUserId.valid
  have hbody := length_pos_of_validateText entry.post.body.valid
  have hbody' := length_le_of_validateText entry.post.body.valid
  have hsender : encodeUint64 entry.post.senderSequence.toNat ≠ zeroOrder :=
    encode_ne_zeroOrder (sequence_pos entry) hsequence
  have hreply : replyAllowed (postRowV1 entry).messageId (postRowV1 entry).replyTo := by
    cases hreply : entry.post.replyTo with
    | none => simp [postRowV1, hreply, replyAllowed]
    | some replyTo =>
      have hne : replyTo.uuid.bytes ≠ entry.post.messageId.uuid.bytes := fun heq =>
        entry.post.replyTo_ne (hreply.trans (congrArg some (uuid_bytes_inj heq)))
      simp [postRowV1, hreply, replyAllowed, hne, Uuid.length_bytes]
  have horigin : localStateAllowed (postRowV1 entry).origin (postRowV1 entry).localState := by
    rcases entry with ⟨post, receivedOrder, _ | state⟩
    · rfl
    · cases state <;> rfl
  rw [PostRowV1.check, hreply, horigin]
  simp [postRowV1, Uuid.length_bytes, length_encode, hsender, encode_ne_zeroOrder hpositive hbound,
    Nat.succ_le_iff, huser, hbody, show entry.post.senderUserId.value.length ≤ 24 from huser',
    show entry.post.body.value.length ≤ 160 from hbody']

theorem encode_ne {left right : ℕ} (hlt : left < right) (hright : right ≤ kMaximumOrder) :
    encodeUint64 left ≠ encodeUint64 right := by
  intro heq
  have := congrArg BigEndian.ofBytes heq
  rw [ofBytes_encode (by omega), ofBytes_encode hright] at this
  omega

section Posts

variable {entries : List TimelineEntry} {last : ℕ}
  (h : Stamped TimelineEntry.messageId TimelineEntry.receivedOrder last entries)
  (hlast : last ≤ kMaximumOrder)

include h hlast

theorem pairwise_postRows : entries.Pairwise fun left right =>
    (postRowV1 left).messageId ≠ (postRowV1 right).messageId ∧
      (postRowV1 left).receivedOrder ≠ (postRowV1 right).receivedOrder := by
  refine List.Pairwise.imp_of_mem (fun _ hright hpair => ⟨fun heq => ?_, ?_⟩) h.pairwise
  · exact hpair.1 (uuid_bytes_inj heq)
  · exact encode_ne hpair.2 (Nat.le_trans (h.bounded _ hright) hlast)

theorem check_postRows : ∀ entry ∈ entries, (postRowV1 entry).check := fun entry hentry =>
  check_postRow (h.positive entry hentry) (Nat.le_trans (h.bounded entry hentry) hlast)

theorem holds_postRowsV1 : postRulesV1.holds (entries.map postRowV1) := by
  refine Rules.holds_iff.mpr ⟨List.forall_mem_map.mpr (check_postRows h hlast), ?_⟩
  rw [List.pairwise_map]
  exact (pairwise_postRows h hlast).imp fun hpair => by simpa [postRulesV1] using hpair

theorem holds_postRows : postRules.holds (entries.map postRow) := by
  refine Rules.holds_iff.mpr ⟨List.forall_mem_map.mpr (check_postRows h hlast), ?_⟩
  rw [List.pairwise_map]
  exact (pairwise_postRows h hlast).imp fun hpair => by simpa [postRules, postRow] using hpair

omit hlast in
theorem holds_mentionRows : mentionRules.holds (entries.flatMap mentionRows) := by
  refine Rules.holds_iff.mpr ⟨?_, List.pairwise_flatMap.mpr ⟨?_, ?_⟩⟩
  · intro row hrow
    obtain ⟨entry, -, hrow⟩ := List.mem_flatMap.mp hrow
    obtain ⟨-, hle, hlt, hlength, -⟩ := mem_mentionRowsFrom hrow
    have hmentions : entry.post.mentions.length ≤ 4 := entry.post.mentions_length
    have hordinal : row.ordinal ≤ 3 := by omega
    simpa [mentionRules, hlength, hordinal] using hle
  · exact fun entry _ => mentionRowsFrom_distinct _ _ entry.post.mentions_nodup
  · refine h.pairwise.imp fun {left right} hpair row hrow other hother => ?_
    have hid : row.messageId ≠ other.messageId := by
      rw [messageId_mentionRows hrow, messageId_mentionRows hother]
      exact fun heq => hpair.1 (uuid_bytes_inj heq)
    simp [mentionRules, hid]

/-- The rows of posts and mentions respect their constraints in any order, and no
mention is without its post. -/
theorem posts_intact {posts : List PostRow} {mentions : List MentionRow}
    (hposts : posts.Perm (entries.map postRow))
    (hmentions : mentions.Perm (entries.flatMap mentionRows)) :
    postRules.holds posts ∧ mentionRules.holds mentions ∧
      ∀ row ∈ mentions, posts.any fun post => post.messageId = row.messageId := by
  refine ⟨Rules.holds_perm (fun a b hab => by simpa [postRules, ne_comm] using hab) hposts
    (holds_postRows h hlast), Rules.holds_perm
    (fun a b hab => by simpa [mentionRules, ne_comm] using hab) hmentions (holds_mentionRows h), ?_⟩
  intro row hrow
  obtain ⟨entry, hentry, hrow⟩ := List.mem_flatMap.mp (hmentions.mem_iff.mp hrow)
  rw [List.any_eq_true]
  refine ⟨postRow entry, hposts.mem_iff.mpr (List.mem_map_of_mem hentry), ?_⟩
  rw [decide_eq_true_eq]
  exact (messageId_mentionRows hrow).symm

end Posts

theorem holds_seenMessageRows {window : MessageDedupeWindow}
    (hlast : window.lastSeenOrder ≤ kMaximumOrder) :
    seenMessageRules.holds (window.records.map seenMessageRow) := by
  have hbound : ∀ record ∈ window.records, record.seenOrder ≤ kMaximumOrder := fun record hrecord =>
    Nat.le_trans (window.stamped.bounded record hrecord) hlast
  refine Rules.holds_iff.mpr ⟨List.forall_mem_map.mpr fun record hrecord => ?_, ?_⟩
  · obtain ⟨hpositive, post, -, hbytes⟩ :=
      isCanonicalRecord_iff.mp (window.canonical record hrecord)
    have hsize := encodedSize_bounds post
    rw [← length_postBytes, ← hbytes] at hsize
    have hmin : 46 ≤ record.encodedPost.length := hsize.1
    have hmax : record.encodedPost.length ≤ 316 := hsize.2
    simp [seenMessageRules, seenMessageRow, Uuid.length_bytes, length_encode, hmin, hmax,
      encode_ne_zeroOrder hpositive (hbound record hrecord)]
  · rw [List.pairwise_map]
    refine List.Pairwise.imp_of_mem (fun {left right} _ hright hpair => ?_) window.stamped.pairwise
    have hid : left.messageId.uuid.bytes ≠ right.messageId.uuid.bytes := fun heq =>
      hpair.1 (uuid_bytes_inj heq)
    simp [seenMessageRules, seenMessageRow, hid, encode_ne hpair.2 (hbound right hright)]

theorem holds_metaRows (installId : Uuid) (lastAssignedOrder lastSeenOrder : ℕ) {flag : UInt8}
    (hflag : flag = 0 ∨ flag = 1) :
    (metaRules true).holds (metaRows installId lastAssignedOrder lastSeenOrder flag) := by
  rw [Rules.holds_iff]
  rcases hflag with rfl | rfl <;>
    simp [metaRows, metaRules, installId.length_bytes, length_encode]

/-! ### Databases and the histories they hold -/

/-- The orders of a snapshot are 64-bit numbers. -/
structure Sized (snapshot : HistorySnapshot) : Prop where
  assigned : snapshot.lastAssignedOrder ≤ kMaximumOrder
  seen : snapshot.lastSeenOrder ≤ kMaximumOrder

/-- What the rows of both tables have in common: distinct ids, increasing orders. -/
structure Ordered (snapshot : HistorySnapshot) : Prop extends Sized snapshot where
  entries : Stamped TimelineEntry.messageId TimelineEntry.receivedOrder snapshot.lastAssignedOrder
    snapshot.entries
  seenMessages : Stamped SeenMessageRecord.messageId SeenMessageRecord.seenOrder
    snapshot.lastSeenOrder snapshot.seenMessages

theorem ordered_of_valid {window : MessageDedupeWindow} {snapshot : HistorySnapshot}
    {identity : Identity} (h : SnapshotValid window snapshot identity) (hsized : Sized snapshot) :
    Ordered snapshot where
  toSized := hsized
  entries := h.stamped
  seenMessages := by
    rw [← h.records, ← h.last]
    exact window.stamped

/-- The database has the current schema, and its rows are those of the history. -/
structure Represents (db : Database) (history : StoredHistory) : Prop where
  applicationId : db.applicationId = kHistoryApplicationId
  userVersion : db.userVersion = kHistorySchemaVersion
  metadata : ∃ rows, db.metadata = some ⟨true, rows⟩ ∧ rows.Perm
    (metaRows history.installId history.snapshot.lastAssignedOrder history.snapshot.lastSeenOrder
      (if history.dedupeInitialized then 1 else 0))
  metadataV2 : db.metadataV2 = none
  posts : ∃ rows, db.posts = some (.v2 rows) ∧ rows.Perm (history.snapshot.entries.map postRow)
  postsV1 : db.postsV1 = none
  mentions : ∃ rows, db.mentions = some rows ∧
    rows.Perm (history.snapshot.entries.flatMap mentionRows)
  seenMessages : ∃ rows, db.seenMessages = some rows ∧
    rows.Perm (history.snapshot.seenMessages.map seenMessageRow)

def metadataOf (history : StoredHistory) : StoredMetadata where
  dedupeInitialized := history.dedupeInitialized
  installId := history.installId.bytes
  lastAssignedOrder := history.snapshot.lastAssignedOrder
  lastSeenOrder := history.snapshot.lastSeenOrder

namespace Represents

variable {db : Database} {history : StoredHistory} {identity : Identity}

theorem orderedPosts (h : Represents db history) (hordered : Ordered history.snapshot) :
    db.orderedPosts = history.snapshot.entries.map postRow := by
  obtain ⟨rows, hposts, hperm⟩ := h.posts
  have hrows : db.postRows = rows := by rw [Database.postRows, hposts]
  rw [Database.orderedPosts, hrows]
  refine orderBy_encoded (fun _ => rfl) hperm hordered.entries.increasing fun entry hentry => ?_
  exact Nat.le_trans (hordered.entries.bounded entry hentry) hordered.assigned

theorem orderedSeenMessages (h : Represents db history) (hordered : Ordered history.snapshot) :
    db.orderedSeenMessages = history.snapshot.seenMessages.map seenMessageRow := by
  obtain ⟨rows, hseen, hperm⟩ := h.seenMessages
  have hrows : db.seenMessageRows = rows :=
    by rw [Database.seenMessageRows, hseen, Option.getD_some]
  rw [Database.orderedSeenMessages, hrows]
  refine orderBy_encoded (fun _ => rfl) hperm hordered.seenMessages.increasing fun record
    hrecord => ?_
  exact Nat.le_trans (hordered.seenMessages.bounded record hrecord) hordered.seen

theorem mapM_readPost (h : Represents db history) (hordered : Ordered history.snapshot) :
    db.orderedPosts.mapM (readPost db.mentionRows) = some history.snapshot.entries := by
  obtain ⟨rows, hmentions, hperm⟩ := h.mentions
  have hrows : db.mentionRows = rows := by rw [Database.mentionRows, hmentions, Option.getD_some]
  rw [h.orderedPosts hordered, hrows]
  have hread : ∀ entry ∈ history.snapshot.entries, readPost rows (postRow entry) = some entry :=
    fun entry hentry => readPost_postRow
      (mentionsOf_eq hperm hordered.entries.distinct hentry)
      (Nat.le_trans (hordered.entries.bounded entry hentry) hordered.assigned)
  exact mapM_map_eq_some hread

theorem mapM_readSeenMessage (h : Represents db history) (hordered : Ordered history.snapshot) :
    db.orderedSeenMessages.mapM readSeenMessage = some history.snapshot.seenMessages := by
  rw [h.orderedSeenMessages hordered]
  exact mapM_map_eq_some fun record hrecord => readSeenMessage_row
    (Nat.le_trans (hordered.seenMessages.bounded record hrecord) hordered.seen)

/-- Reading the database is reading the history. -/
theorem readSnapshot (h : Represents db history) (hordered : Ordered history.snapshot)
    (identity : Identity) :
    readSnapshot db (metadataOf history) identity = history.readSnapshot identity := by
  rw [HistoryStore.readSnapshot, h.mapM_readPost hordered, h.mapM_readSeenMessage hordered]
  simp only [metadataOf, readUuid_bytes]

theorem loadMetadata (h : Represents db history) (hsized : Sized history.snapshot) :
    loadMetadata db = .ok (some (metadataOf history)) := by
  obtain ⟨rows, hmetadata, hperm⟩ := h.metadata
  have hrows : db.metaRows = rows := by rw [Database.metaRows, hmetadata]; rfl
  rw [← hrows] at hperm
  rw [loadMetadata_eq hperm hsized.assigned hsized.seen (by split <;> simp), metadataOf]
  cases history.dedupeInitialized <;> rfl

theorem verifySchema (h : Represents db history) :
    verifySchema kHistorySchemaVersion db = .ok () := by
  obtain ⟨metadata, hmetadata, -⟩ := h.metadata
  obtain ⟨posts, hposts, -⟩ := h.posts
  obtain ⟨mentions, hmentions, -⟩ := h.mentions
  obtain ⟨seenMessages, hseenMessages, -⟩ := h.seenMessages
  rw [HistoryStore.verifySchema, if_pos]
  simp [hmetadata, hposts, hmentions, hseenMessages, h.metadataV2, h.postsV1, Database.hasPostsV2,
    kHistorySchemaVersion]

/-- The rows of a history respect all constraints. -/
theorem runIntegrityChecks (h : Represents db history) (hordered : Ordered history.snapshot)
    {window : MessageDedupeWindow} (hwindow : window.records = history.snapshot.seenMessages)
    (hlast : window.lastSeenOrder = history.snapshot.lastSeenOrder) :
    runIntegrityChecks db = .ok () := by
  obtain ⟨metadata, hmetadata, hmetadataPerm⟩ := h.metadata
  obtain ⟨posts, hposts, hpostsPerm⟩ := h.posts
  obtain ⟨mentions, hmentions, hmentionsPerm⟩ := h.mentions
  obtain ⟨seenMessages, hseenMessages, hseenPerm⟩ := h.seenMessages
  have hmetaHolds : (metaRules true).holds metadata :=
    Rules.holds_perm (fun a b hab => by simpa [metaRules, ne_comm] using hab) hmetadataPerm
      (holds_metaRows _ _ _ (by split <;> simp))
  obtain ⟨hpostHolds, hmentionHolds, hparents⟩ :=
    posts_intact hordered.entries hordered.assigned hpostsPerm hmentionsPerm
  have hseenHolds : seenMessageRules.holds seenMessages := by
    refine Rules.holds_perm (fun a b hab => by simpa [seenMessageRules, ne_comm] using hab)
      hseenPerm ?_
    rw [← hwindow]
    exact holds_seenMessageRows (hlast ▸ hordered.seen)
  have hintegrity : db.integrityCheck := by
    simp [Database.integrityCheck, Database.mentionRows, Database.seenMessageRows,
      hmetadata, hposts, hmentions, hseenMessages, hmetaHolds, hpostHolds, hmentionHolds,
      hseenHolds]
  have hforeign : db.foreignKeyCheck := by
    rw [Database.foreignKeyCheck, List.all_eq_true, Database.mentionRows, hmentions,
      Option.getD_some]
    intro row hrow
    rw [Database.hasPost, Database.postRows, hposts]
    exact hparents row hrow
  rw [HistoryStore.runIntegrityChecks, hintegrity, hforeign]
  rfl

theorem preflight (h : Represents db history) (hordered : Ordered history.snapshot)
    {window : MessageDedupeWindow} (hwindow : window.records = history.snapshot.seenMessages)
    (hlast : window.lastSeenOrder = history.snapshot.lastSeenOrder) : preflight db = .ok () := by
  have hheader : checkHeader db = .ok () := by
    simp [checkHeader, h.applicationId, h.userVersion]
  rw [HistoryStore.preflight, hheader, h.verifySchema]
  exact h.runIntegrityChecks hordered hwindow hlast

end Represents

end Lora.HistoryStore
