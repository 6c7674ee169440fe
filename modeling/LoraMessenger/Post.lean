/-
Posts.

`PostPayloadInput` is the raw data a post is built from and `PostPayload` the
validated value; its fields carry what `PostPayload.create` checks, so a post
that the constructor would refuse cannot be written down.  The constructor is
characterised once and for all:

* `create_eq_ok` — `create input = .ok post` exactly when `input` is the raw
  form `post.toInput` of `post`; no two inputs give one post, and every post
  comes from an input.
-/
import LoraMessenger.Text

namespace Lora

inductive PostError where
  | none
  | invalidMessageId
  | invalidSenderId
  | invalidSenderSequence
  | invalidSenderUserId
  | invalidBody
  | tooManyMentions
  | invalidMentionId
  | duplicateMention
  | invalidReplyId
  | selfReply
deriving DecidableEq

structure PostPayloadInput where
  messageId : Uuid
  senderId : Uuid
  senderSequence : UInt64
  senderUserId : Bytes
  body : Bytes
  mentions : List Uuid
  replyTo : Option Uuid
  senderTime : Option Int64
deriving DecidableEq

/-- A valid post. -/
structure PostPayload where
  messageId : MessageId
  senderId : InstallId
  senderSequence : UInt64
  senderUserId : UserId
  body : PostBody
  mentions : List InstallId
  replyTo : Option MessageId
  senderTime : Option Int64
  senderSequence_ne : senderSequence ≠ 0
  mentions_length : mentions.length ≤ kMaxMentions
  mentions_nodup : mentions.Nodup
  replyTo_ne : replyTo ≠ some messageId
deriving DecidableEq

/-- What the user hands over: ids are already well formed, the text is not
yet checked. -/
structure PostDraft where
  body : Bytes
  mentions : List InstallId
  replyTo : Option MessageId

namespace PostPayload

/-- The loop over the raw mentions; `mentions` is the vector built so far. -/
def collectMentions : List InstallId → List Uuid → Except PostError (List InstallId)
  | mentions, [] => .ok mentions
  | mentions, rawMention :: rest =>
    match InstallId.fromUuid rawMention with
    | .error _ => .error .invalidMentionId
    | .ok mention =>
      if mention ∈ mentions then .error .duplicateMention
      else collectMentions (mentions ++ [mention]) rest

def checkReply (messageId : MessageId) : Option Uuid → Except PostError (Option MessageId)
  | none => .ok none
  | some raw =>
    match MessageId.fromUuid raw with
    | .error _ => .error .invalidReplyId
    | .ok reply => if reply = messageId then .error .selfReply else .ok (some reply)

theorem collectMentions_eq_ok {acc : List InstallId} {raws : List Uuid} {mentions : List InstallId}
    (hacc : acc.Nodup) :
    collectMentions acc raws = .ok mentions ↔
      mentions.Nodup ∧ ∃ added, mentions = acc ++ added ∧ added.map InstallId.uuid = raws := by
  induction raws generalizing acc with
  | nil =>
    simp only [collectMentions, Except.ok.injEq, List.map_eq_nil_iff]
    constructor
    · rintro rfl
      exact ⟨hacc, [], by simp⟩
    · rintro ⟨-, added, rfl, rfl⟩
      simp
  | cons raw rest ih =>
    rw [collectMentions]
    constructor
    · intro h
      split at h
      · cases h
      · rename_i mention hmention
        split at h
        · cases h
        · rename_i hnew
          have hacc' : (acc ++ [mention]).Nodup := by
            rw [List.nodup_append]
            exact ⟨hacc, by simp, by rintro a ha b hb rfl; simp_all⟩
          obtain ⟨hnodup, added, rfl, hraws⟩ := (ih hacc').mp h
          refine ⟨hnodup, mention :: added, by simp, ?_⟩
          rw [List.map_cons, hraws, InstallId.fromUuid_eq_ok.mp hmention]
    · rintro ⟨hnodup, added, rfl, hraws⟩
      rcases added with _ | ⟨mention, added⟩
      · simp at hraws
      · obtain ⟨rfl, rfl⟩ := List.cons_eq_cons.mp hraws
        rw [InstallId.fromUuid_eq_ok.mpr rfl]
        have hsplit : acc ++ mention :: added = (acc ++ [mention]) ++ added := by simp
        have hnew : mention ∉ acc := by
          intro hmem
          rw [List.nodup_append] at hnodup
          exact hnodup.2.2 mention hmem mention (List.mem_cons_self ..) rfl
        have hacc' : (acc ++ [mention]).Nodup := by
          rw [hsplit] at hnodup
          exact hnodup.sublist (List.sublist_append_left _ _)
        simp only [if_neg hnew]
        exact (ih hacc').mpr ⟨hnodup, added, hsplit, rfl⟩

theorem checkReply_eq_ok {messageId : MessageId} {raw : Option Uuid} {reply : Option MessageId} :
    checkReply messageId raw = .ok reply ↔
      reply.map MessageId.uuid = raw ∧ reply ≠ some messageId := by
  rcases raw with _ | raw
  · simp only [checkReply, Except.ok.injEq, Option.map_eq_none_iff]
    constructor
    · rintro rfl
      simp
    · rintro ⟨rfl, -⟩
      rfl
  · rw [checkReply]
    constructor
    · intro h
      split at h
      · cases h
      · rename_i found hfound
        split at h
        · cases h
        · rename_i hne
          cases h
          exact ⟨by simp [MessageId.fromUuid_eq_ok.mp hfound], by simpa using hne⟩
    · rintro ⟨hmap, hne⟩
      obtain ⟨found, rfl, rfl⟩ := Option.map_eq_some_iff.mp hmap
      rw [MessageId.fromUuid_eq_ok.mpr rfl]
      have hne' : found ≠ messageId := by simpa using hne
      simp [if_neg hne']

def create (input : PostPayloadInput) : Except PostError PostPayload :=
  match MessageId.fromUuid input.messageId with
  | .error _ => .error .invalidMessageId
  | .ok messageId =>
  match InstallId.fromUuid input.senderId with
  | .error _ => .error .invalidSenderId
  | .ok senderId =>
  if hsequence : input.senderSequence = 0 then .error .invalidSenderSequence else
  match UserId.create input.senderUserId with
  | .error _ => .error .invalidSenderUserId
  | .ok senderUserId =>
  match PostBody.create input.body with
  | .error _ => .error .invalidBody
  | .ok body =>
  if hlength : input.mentions.length > kMaxMentions then .error .tooManyMentions else
  match hmentions : collectMentions [] input.mentions with
  | .error error => .error error
  | .ok mentions =>
  match hreply : checkReply messageId input.replyTo with
  | .error error => .error error
  | .ok replyTo =>
    .ok { messageId, senderId, senderSequence := input.senderSequence, senderUserId, body,
          mentions, replyTo, senderTime := input.senderTime,
          senderSequence_ne := hsequence
          mentions_length := by
            obtain ⟨-, added, rfl, hraws⟩ :=
              (collectMentions_eq_ok List.nodup_nil).mp hmentions
            have hlen := congrArg List.length hraws
            rw [List.length_map] at hlen
            omega
          mentions_nodup := ((collectMentions_eq_ok List.nodup_nil).mp hmentions).1
          replyTo_ne := (checkReply_eq_ok.mp hreply).2 }

/-- The raw form of a post, as `compose` and the decoders assemble it. -/
def toInput (post : PostPayload) : PostPayloadInput where
  messageId := post.messageId.uuid
  senderId := post.senderId.uuid
  senderSequence := post.senderSequence
  senderUserId := post.senderUserId.value
  body := post.body.value
  mentions := post.mentions.map InstallId.uuid
  replyTo := post.replyTo.map MessageId.uuid
  senderTime := post.senderTime

/-- Everything the checks of `create` establish, read off a successful run. -/
theorem toInput_of_create {input : PostPayloadInput} {post : PostPayload}
    (h : create input = .ok post) : post.toInput = input := by
  unfold create at h
  split at h
  · cases h
  rename_i messageId hid
  split at h
  · cases h
  rename_i senderId hsender
  split at h
  · cases h
  split at h
  · cases h
  rename_i userId huser
  split at h
  · cases h
  rename_i body hbody
  split at h
  · cases h
  split at h
  · cases h
  rename_i mentions hmentions
  split at h
  · cases h
  rename_i replyTo hreply
  cases h
  obtain ⟨-, added, rfl, hraws⟩ := (collectMentions_eq_ok List.nodup_nil).mp hmentions
  simp only [toInput, MessageId.fromUuid_eq_ok.mp hid, InstallId.fromUuid_eq_ok.mp hsender,
    UserId.create_eq_ok.mp huser, PostBody.create_eq_ok.mp hbody, hraws,
    (checkReply_eq_ok.mp hreply).1]

theorem create_toInput (post : PostPayload) : create post.toInput = .ok post := by
  have hid : MessageId.fromUuid post.toInput.messageId = .ok post.messageId :=
    MessageId.fromUuid_eq_ok.mpr rfl
  have hsender : InstallId.fromUuid post.toInput.senderId = .ok post.senderId :=
    InstallId.fromUuid_eq_ok.mpr rfl
  have huser : UserId.create post.toInput.senderUserId = .ok post.senderUserId :=
    UserId.create_eq_ok.mpr rfl
  have hbody : PostBody.create post.toInput.body = .ok post.body :=
    PostBody.create_eq_ok.mpr rfl
  have hlength : ¬post.toInput.mentions.length > kMaxMentions := by
    have h := post.mentions_length
    simp only [toInput, List.length_map]
    omega
  have hmentions : collectMentions [] post.toInput.mentions = .ok post.mentions :=
    (collectMentions_eq_ok List.nodup_nil).mpr ⟨post.mentions_nodup, _, rfl, rfl⟩
  have hreply : checkReply post.messageId post.toInput.replyTo = .ok post.replyTo :=
    checkReply_eq_ok.mpr ⟨rfl, post.replyTo_ne⟩
  have hsequence : ¬post.toInput.senderSequence = 0 := post.senderSequence_ne
  unfold create
  simp only [hid, hsender, huser, hbody]
  rw [dif_neg hsequence, dif_neg hlength]
  split
  · rename_i hfail
    rw [hmentions] at hfail
    cases hfail
  rename_i mentions hfound
  rw [hmentions] at hfound
  cases hfound
  split
  · rename_i hfail
    rw [hreply] at hfail
    cases hfail
  rename_i replyTo hfound
  rw [hreply] at hfound
  cases hfound
  rfl

theorem create_eq_ok {input : PostPayloadInput} {post : PostPayload} :
    create input = .ok post ↔ post.toInput = input := by
  constructor
  · exact toInput_of_create
  · rintro rfl
    exact create_toInput post

end PostPayload

/-- A post of one letter, to try things on. -/
def samplePost : PostPayload where
  messageId := ⟨⟨[1, 2, 3, 4, 5, 6, 0x47, 8, 0x89, 10, 11, 12, 13, 14, 15, 16], rfl⟩, by decide⟩
  senderId := ⟨⟨[16, 15, 14, 13, 12, 11, 0x4a, 9, 0x88, 7, 6, 5, 4, 3, 2, 1], rfl⟩, by decide⟩
  senderSequence := 1
  senderUserId := ⟨[0x61], by decide⟩
  body := ⟨[0x62], by decide⟩
  mentions := []
  replyTo := none
  senderTime := none
  senderSequence_ne := by decide
  mentions_length := by decide
  mentions_nodup := by decide
  replyTo_ne := by decide

/-- Others like it. -/
def numberedPost (number : UInt8) : PostPayload :=
  { samplePost with
    messageId := ⟨⟨[number, 2, 3, 4, 5, 6, 0x47, 8, 0x89, 10, 11, 12, 13, 14, 15, 16], rfl⟩, by
      simp [Uuid.isV4, Uuid.isNil]
      decide⟩
    replyTo_ne := by simp [samplePost] }

end Lora
