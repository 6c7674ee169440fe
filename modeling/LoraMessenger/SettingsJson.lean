/-
The text of the settings file.

`serializeSettingsJson` writes a record on one line; `parseSettingsJson` accepts
that and the older schema, and refuses everything else with the first complaint
in the order of its checks.

* `parseSettingsJson_settingsText` — every record the writer takes is read back;
* `settings_json_round_trip` — and so is every record that was read from any document.
-/
import LoraMessenger.History
import LoraMessenger.Json

namespace Lora

open JsonParser

def kMaxSettingsJsonBytes : ℕ := 16 * 1024
def kSettingsFormat : Bytes := ascii "lora-messenger.settings"

/-! ### Decimal numbers -/

/-- `std::to_string`. -/
def decimal (value : ℕ) : Bytes := ascii value.repr

/-- The loop of `parse_canonical_uint64`; the check keeps the result in range. -/
def accumulateDigits : (result : ℕ) → Bytes → Option ℕ
  | result, [] => some result
  | result, character :: rest =>
    if character < 0x30 ∨ 0x39 < character then none
    else if result > (2 ^ 64 - 1 - (character.toNat - 0x30)) / 10 then none
    else accumulateDigits (result * 10 + (character.toNat - 0x30)) rest

def parseCanonicalUint64 (value : Bytes) : Option ℕ :=
  if value = [] ∨ (1 < value.length ∧ value.head? = some 0x30) then none
  else accumulateDigits 0 value

theorem accumulateDigits_append (result : ℕ) (left right : Bytes) :
    accumulateDigits result (left ++ right) =
      (accumulateDigits result left).bind (accumulateDigits · right) := by
  induction left generalizing result with
  | nil => rfl
  | cons character left ih =>
    rw [List.cons_append, accumulateDigits, accumulateDigits]
    split
    · rfl
    split
    · rfl
    · exact ih _

theorem accumulateDigits_digit {result digit : ℕ} (hdigit : digit < 10)
    (hrange : result * 10 + digit < 2 ^ 64) :
    accumulateDigits result (ascii (String.ofList [digit.digitChar])) =
      some (result * 10 + digit) := by
  have hcharacter : ∀ digit < 10, (Nat.digitChar digit).toNat.toUInt8 = (0x30 + digit).toUInt8 ∧
      ¬((0x30 + digit).toUInt8 < 0x30 ∨ 0x39 < (0x30 + digit).toUInt8) ∧
      (0x30 + digit).toUInt8.toNat - 0x30 = digit := by decide
  obtain ⟨hvalue, hin, hback⟩ := hcharacter digit hdigit
  rw [ascii, String.toList_ofList, List.map_singleton, hvalue, accumulateDigits, if_neg hin, hback,
    if_neg (by omega), accumulateDigits]

theorem decimal_eq (value : ℕ) : decimal value =
    if value < 10 then ascii (String.ofList [value.digitChar])
    else decimal (value / 10) ++ ascii (String.ofList [(value % 10).digitChar]) := by
  unfold decimal ascii
  simp only [Nat.toList_repr, String.toList_ofList]
  split
  · rw [Nat.toDigits_of_lt_base ‹_›]
  · rw [← List.map_append, Nat.toDigits_of_base_le (by decide) (by omega)]

theorem accumulateDigits_decimal {value : ℕ} (hrange : value < 2 ^ 64) :
    accumulateDigits 0 (decimal value) = some value := by
  induction value using Nat.strongRecOn with
  | _ value ih =>
    rw [decimal_eq]
    split
    · rename_i hsmall
      simpa using accumulateDigits_digit hsmall (by omega : 0 * 10 + value < 2 ^ 64)
    · rw [accumulateDigits_append, ih (value / 10) (by omega) (by omega), Option.bind_some,
        accumulateDigits_digit (by omega) (by omega)]
      congr 1
      omega

theorem head_decimal {value : ℕ} (hvalue : 10 ≤ value) :
    (decimal value).head? ≠ some 0x30 := by
  induction value using Nat.strongRecOn with
  | _ value ih =>
    have hdigit : ∀ digit < 10, digit ≠ 0 → (Nat.digitChar digit).toNat.toUInt8 ≠ 0x30 := by decide
    rw [decimal_eq, if_neg (by omega)]
    by_cases hsmall : value / 10 < 10
    · rw [decimal_eq, if_pos hsmall]
      simpa [ascii] using hdigit _ hsmall (by omega)
    · have hhead := ih (value / 10) (by omega) (by omega)
      rcases hdecimal : decimal (value / 10) with _ | ⟨character, rest⟩
      · rw [decimal_eq, if_neg hsmall] at hdecimal
        simp [ascii] at hdecimal
      · rw [hdecimal] at hhead
        simpa using hhead

theorem parseCanonicalUint64_decimal {value : ℕ} (hrange : value < 2 ^ 64) :
    parseCanonicalUint64 (decimal value) = some value := by
  have hcanonical : ¬(decimal value = [] ∨
      (1 < (decimal value).length ∧ (decimal value).head? = some 0x30)) := by
    by_cases hsmall : value < 10
    · rw [decimal_eq, if_pos hsmall]
      simp [ascii]
    · rintro (hnil | ⟨-, hhead⟩)
      · rw [decimal_eq, if_neg hsmall] at hnil
        simp [ascii] at hnil
      · exact head_decimal (by omega) hhead
  rw [parseCanonicalUint64, if_neg hcanonical, accumulateDigits_decimal hrange]

theorem accumulateDigits_lt {result value : ℕ} {digits : Bytes} (hresult : result < 2 ^ 64)
    (h : accumulateDigits result digits = some value) : value < 2 ^ 64 := by
  induction digits generalizing result with
  | nil =>
    obtain rfl := Option.some.inj h
    exact hresult
  | cons character digits ih =>
    rw [accumulateDigits] at h
    split at h
    · cases h
    split at h
    · cases h
    · rename_i hdigit hsmall
      have hlarge := UInt8.le_iff_toNat_le.mp (UInt8.not_lt.mp (not_or.mp hdigit).2)
      simp only [UInt8.toNat_ofNat] at hlarge
      exact ih (by omega) h

theorem parseCanonicalUint64_lt {digits : Bytes} {value : ℕ}
    (h : parseCanonicalUint64 digits = some value) : value < 2 ^ 64 := by
  rw [parseCanonicalUint64] at h
  split at h
  · cases h
  · exact accumulateDigits_lt (by decide) h

theorem length_decimal_le {value : ℕ} (hrange : value < 2 ^ 64) : (decimal value).length ≤ 20 := by
  rw [decimal, ascii, List.length_map, Nat.toList_repr,
    Nat.length_toDigits_le_iff (by decide) (by decide)]
  omega

theorem decimal_le (value : ℕ) : ∀ byte ∈ decimal value, byte ≤ 0x7f := by
  have hdigit : ∀ digit < 10, (Nat.digitChar digit).toNat.toUInt8 ≤ 0x7f := by decide
  induction value using Nat.strongRecOn with
  | _ value ih =>
    rw [decimal_eq]
    split
    · rename_i hsmall
      simpa [ascii] using hdigit _ hsmall
    · intro byte hbyte
      rcases List.mem_append.mp hbyte with hbyte | hbyte
      · exact ih (value / 10) (by omega) byte hbyte
      · simp only [ascii, String.toList_ofList, List.map_cons, List.map_nil,
          List.mem_singleton] at hbyte
        rw [hbyte]
        exact hdigit _ (by omega)

/-! ### Reading -/

/-- The members of a JSON object, in the order of the text. -/
abbrev JsonObject := List (Bytes × JsonValue)

def member (object : JsonObject) (key : String) : Option JsonValue :=
  (object.find? fun entry => entry.1 = ascii key).map Prod.snd

def hasOnlyKeys (object : JsonObject) (allowed : List String) : Bool :=
  object.all fun entry => allowed.any fun candidate => entry.1 = ascii candidate

/-- The checks on the section `identity`. -/
def parseIdentity (identity : JsonObject) :
    Except SettingsJsonError (InstallId × UserId × UInt64) :=
  if !hasOnlyKeys identity ["install_uuid", "user_id", "sender_sequence_high_watermark"] then
    .error .unknownKey
  else
    match member identity "install_uuid", member identity "user_id",
      member identity "sender_sequence_high_watermark" with
    | some installUuid, some userId, some senderSequence =>
      match installUuid, userId, senderSequence with
      | .string installUuid, .string userId, .string senderSequence =>
        match Uuid.parse installUuid with
        | none => .error .invalidInstallUuid
        | some uuid =>
          if uuid.toString ≠ installUuid then .error .invalidInstallUuid
          else
            match InstallId.fromUuid uuid with
            | .error _ => .error .invalidInstallUuid
            | .ok installId =>
              match UserId.create userId with
              | .error _ => .error .invalidUserId
              | .ok userId =>
                match parseCanonicalUint64 senderSequence with
                | none => .error .invalidSenderSequence
                | some senderSequence => .ok (installId, userId, senderSequence.toUInt64)
      | _, _, _ => .error .wrongType
    | _, _, _ => .error .missingKey

def parseLocale (locale : Bytes) : Except SettingsJsonError StoredLocale :=
  if locale = ascii "en" then .ok .english
  else if locale = ascii "ja" then .ok .japanese
  else if locale = ascii "zh-Hans" then .ok .simplifiedChinese
  else .error .invalidLocale

/-- The checks on the section `ui`; the first schema has no `skip_title`. -/
def parseUi (schemaV2 : Bool) (ui : JsonObject) : Except SettingsJsonError (StoredLocale × Bool) :=
  if !hasOnlyKeys ui (if schemaV2 then ["locale", "skip_title"] else ["locale"]) then
    .error .unknownKey
  else
    match member ui "locale" with
    | none => .error .missingKey
    | some locale =>
      if schemaV2 then
        match member ui "skip_title" with
        | none => .error .missingKey
        | some skipTitle =>
          match locale, skipTitle with
          | .string locale, .boolean skipTitle =>
            (parseLocale locale).map fun locale => (locale, skipTitle)
          | _, _ => .error .wrongType
      else
        match locale with
        | .string locale => (parseLocale locale).map fun locale => (locale, false)
        | _ => .error .wrongType

/-- The checks on the section `history`. -/
def parseHistory (history : JsonObject) : Except SettingsJsonError Bool :=
  if !hasOnlyKeys history ["initialized"] then .error .unknownKey
  else
    match member history "initialized" with
    | none => .error .missingKey
    | some (.boolean initialized) => .ok initialized
    | some _ => .error .wrongType

/-- The sections of the file, behind the checks on their types. -/
def parseSections (format version generation : Bytes) (identity ui history : JsonObject) :
    Except SettingsJsonError SettingsRecord :=
  if format ≠ kSettingsFormat then .error .unsupportedFormat
  else if version ≠ ascii "1" ∧ version ≠ ascii "2" then .error .unsupportedSchemaVersion
  else
    match parseCanonicalUint64 generation with
    | none => .error .invalidGeneration
    | some generation =>
      if generation = 0 then .error .invalidGeneration
      else
        match parseIdentity identity with
        | .error error => .error error
        | .ok (installId, userId, senderSequence) =>
          match parseUi (version = ascii "2") ui with
          | .error error => .error error
          | .ok (locale, skipTitle) =>
            match parseHistory history with
            | .error error => .error error
            | .ok initialized =>
              .ok ⟨generation, installId, userId, senderSequence, locale, initialized, skipTitle⟩

def parseRoot (root : JsonObject) : Except SettingsJsonError SettingsRecord :=
  if !hasOnlyKeys root
      ["format", "schema_version", "generation", "identity", "ui", "history"] then
    .error .unknownKey
  else
    match member root "format", member root "schema_version", member root "generation",
      member root "identity", member root "ui", member root "history" with
    | some format, some version, some generation, some identity, some ui, some history =>
      match format, version, generation, identity, ui, history with
      | .string format, .number version, .string generation, .object identity, .object ui,
        .object history => parseSections format version generation identity ui history
      | _, _, _, _, _, _ => .error .wrongType
    | _, _, _, _, _, _ => .error .missingKey

def parseSettingsJson (json : Bytes) : Except SettingsJsonError SettingsRecord :=
  if json.length > kMaxSettingsJsonBytes then .error .tooLarge
  else if !isValidUtf8 json then .error .invalidUtf8
  else
    match JsonParser.parse json with
    | .error error => .error error
    | .ok (.object root) => parseRoot root
    | .ok _ => .error .wrongType

/-! ### Writing -/

/-- `stored_locale_code`. -/
def storedLocaleCode : StoredLocale → Bytes
  | .english => ascii "en"
  | .japanese => ascii "ja"
  | .simplifiedChinese => ascii "zh-Hans"

def booleanText (value : Bool) : Bytes := ascii (if value then "true" else "false")

/-- The line that stands for a record. -/
def settingsText (settings : SettingsRecord) : Bytes :=
  ascii "\x7b\"format\":" ++ jsonString kSettingsFormat ++
  ascii ",\"schema_version\":2,\"generation\":" ++ jsonString (decimal settings.generation) ++
  ascii ",\"identity\":\x7b\"install_uuid\":" ++ jsonString settings.installId.uuid.toString ++
  ascii ",\"user_id\":" ++ jsonString settings.userId.value ++
  ascii ",\"sender_sequence_high_watermark\":" ++
  jsonString (decimal settings.senderSequenceHighWatermark.toNat) ++
  ascii "\x7d,\"ui\":\x7b\"locale\":" ++ jsonString (storedLocaleCode settings.locale) ++
  ascii ",\"skip_title\":" ++ booleanText settings.skipTitle ++
  ascii "\x7d,\"history\":\x7b\"initialized\":" ++ booleanText settings.historyInitialized ++
  ascii "\x7d\x7d\n"

def serializeSettingsJson (settings : SettingsRecord) : Except SettingsJsonError Bytes :=
  if settings.generation = 0 then .error .invalidGeneration
  else if (storedLocaleCode settings.locale).isEmpty then .error .invalidLocale
  else if (settingsText settings).length > kMaxSettingsJsonBytes then .error .tooLarge
  else .ok (settingsText settings)

/-! ### The round trip -/

section RoundTrip

variable (settings : SettingsRecord)

def identityFields : List Field :=
  [⟨ascii "install_uuid", jsonString settings.installId.uuid.toString,
      .string settings.installId.uuid.toString⟩,
    ⟨ascii "user_id", jsonString settings.userId.value, .string settings.userId.value⟩,
    ⟨ascii "sender_sequence_high_watermark",
      jsonString (decimal settings.senderSequenceHighWatermark.toNat),
      .string (decimal settings.senderSequenceHighWatermark.toNat)⟩]

def uiFields : List Field :=
  [⟨ascii "locale", jsonString (storedLocaleCode settings.locale),
      .string (storedLocaleCode settings.locale)⟩,
    ⟨ascii "skip_title", booleanText settings.skipTitle, .boolean settings.skipTitle⟩]

def historyFields : List Field :=
  [⟨ascii "initialized", booleanText settings.historyInitialized,
    .boolean settings.historyInitialized⟩]

def rootFields : List Field :=
  [⟨ascii "format", jsonString kSettingsFormat, .string kSettingsFormat⟩,
    ⟨ascii "schema_version", ascii "2", .number (ascii "2")⟩,
    ⟨ascii "generation", jsonString (decimal settings.generation),
      .string (decimal settings.generation)⟩,
    ⟨ascii "identity", objectText (identityFields settings),
      .object ((identityFields settings).map Field.member)⟩,
    ⟨ascii "ui", objectText (uiFields settings), .object ((uiFields settings).map Field.member)⟩,
    ⟨ascii "history", objectText (historyFields settings),
      .object ((historyFields settings).map Field.member)⟩]

/-- The line is the object of these members. -/
theorem settingsText_eq : settingsText settings = objectText (rootFields settings) ++ [0x0a] := by
  unfold settingsText objectText rootFields
  simp only [fieldsText, objectText, identityFields, uiFields, historyFields]
  have hformat : ascii "\x7b\"format\":" =
      0x7b :: (jsonString (ascii "format") ++ [0x3a]) := by decide
  have hversion : ascii ",\"schema_version\":2,\"generation\":" =
      0x2c :: (jsonString (ascii "schema_version") ++ 0x3a :: (ascii "2" ++
        0x2c :: (jsonString (ascii "generation") ++ [0x3a]))) := by decide
  have hidentity : ascii ",\"identity\":\x7b\"install_uuid\":" =
      0x2c :: (jsonString (ascii "identity") ++ 0x3a :: 0x7b ::
        (jsonString (ascii "install_uuid") ++ [0x3a])) := by decide
  have huser : ascii ",\"user_id\":" =
      0x2c :: (jsonString (ascii "user_id") ++ [0x3a]) := by decide
  have hsequence : ascii ",\"sender_sequence_high_watermark\":" =
      0x2c :: (jsonString (ascii "sender_sequence_high_watermark") ++ [0x3a]) := by decide
  have hui : ascii "\x7d,\"ui\":\x7b\"locale\":" =
      0x7d :: 0x2c :: (jsonString (ascii "ui") ++ 0x3a :: 0x7b ::
        (jsonString (ascii "locale") ++ [0x3a])) := by decide
  have hskip : ascii ",\"skip_title\":" =
      0x2c :: (jsonString (ascii "skip_title") ++ [0x3a]) := by decide
  have hhistory : ascii "\x7d,\"history\":\x7b\"initialized\":" =
      0x7d :: 0x2c :: (jsonString (ascii "history") ++ 0x3a :: 0x7b ::
        (jsonString (ascii "initialized") ++ [0x3a])) := by decide
  have hend : ascii "\x7d\x7d\n" = [0x7d, 0x7d, 0x0a] := by decide
  rw [hformat, hversion, hidentity, huser, hsequence, hui, hskip, hhistory, hend]
  simp only [List.append_assoc, List.cons_append, List.nil_append]

theorem identityFields_keys : ((identityFields settings).map Field.key).Nodup := by
  show [ascii "install_uuid", ascii "user_id", ascii "sender_sequence_high_watermark"].Nodup
  decide

theorem uiFields_keys : ((uiFields settings).map Field.key).Nodup := by
  show [ascii "locale", ascii "skip_title"].Nodup
  decide

theorem rootFields_keys : ((rootFields settings).map Field.key).Nodup := by
  show [ascii "format", ascii "schema_version", ascii "generation", ascii "identity", ascii "ui",
    ascii "history"].Nodup
  decide

theorem parses_root (field : Field) (h : field ∈ rootFields settings) :
    Parses (parseValue 11) field.text field.value := by
  show Parses (parseToken (some (parseToken (some (parseValue 9))))) field.text field.value
  simp only [rootFields, List.mem_cons, List.not_mem_nil, or_false] at h
  rcases h with rfl | rfl | rfl | rfl | rfl | rfl
  · exact parses_string _ _
  · exact parses_two _
  · exact parses_string _ _
  · refine parses_object (by simp [identityFields]) ?_ (identityFields_keys settings)
    exact List.forall_mem_cons.mpr ⟨parses_string _ _, List.forall_mem_cons.mpr
      ⟨parses_string _ _, List.forall_mem_cons.mpr ⟨parses_string _ _, List.forall_mem_nil _⟩⟩⟩
  · refine parses_object (by simp [uiFields]) ?_ (uiFields_keys settings)
    exact List.forall_mem_cons.mpr ⟨parses_string _ _, List.forall_mem_cons.mpr
      ⟨parses_boolean _ _, List.forall_mem_nil _⟩⟩
  · refine parses_object (by simp [historyFields]) ?_ (by simp [historyFields])
    exact List.forall_mem_cons.mpr ⟨parses_boolean _ _, List.forall_mem_nil _⟩

theorem parse_settingsText :
    JsonParser.parse (settingsText settings) =
      .ok (.object ((rootFields settings).map Field.member)) := by
  have hskip : skipWhitespace (settingsText settings) = settingsText settings := by
    rw [settingsText_eq]
    exact skipWhitespace_cons _ (by decide)
  have hread : parseValue kMaximumJsonNesting (settingsText settings) =
      .ok (.object ((rootFields settings).map Field.member), [0x0a]) := by
    rw [settingsText_eq]
    exact parseToken_objectText (by simp [rootFields]) (parses_root settings)
      (rootFields_keys settings) _
  rw [JsonParser.parse, hskip, hread]
  rfl

theorem parseRoot_rootFields (hzero : settings.generation ≠ 0)
    (hrange : settings.generation < 2 ^ 64) :
    parseRoot ((rootFields settings).map Field.member) = .ok settings := by
  have hidentity : parseIdentity ((identityFields settings).map Field.member) =
      .ok (settings.installId, settings.userId, settings.senderSequenceHighWatermark) := by
    show (match Uuid.parse settings.installId.uuid.toString with
      | none => Except.error SettingsJsonError.invalidInstallUuid
      | some uuid => _) = _
    rw [Uuid.parse_toString]
    simp only [ne_eq, not_true_eq_false, if_false, InstallId.fromUuid_eq_ok.mpr rfl,
      UserId.create_eq_ok.mpr rfl,
      parseCanonicalUint64_decimal settings.senderSequenceHighWatermark.toNat_lt]
    simp
  have hui : parseUi true ((uiFields settings).map Field.member) =
      .ok (settings.locale, settings.skipTitle) := by
    show (parseLocale (storedLocaleCode settings.locale)).map _ = _
    cases settings.locale <;> rfl
  have hhistory : parseHistory ((historyFields settings).map Field.member) =
      .ok settings.historyInitialized := rfl
  show parseSections kSettingsFormat (ascii "2") (decimal settings.generation)
    ((identityFields settings).map Field.member) ((uiFields settings).map Field.member)
    ((historyFields settings).map Field.member) = _
  rw [parseSections, if_neg (by simp), if_neg (by decide), parseCanonicalUint64_decimal hrange]
  simp only [if_neg hzero, hidentity, decide_true, hui, hhistory]

theorem utf8_settingsText : Utf8 (settingsText settings) := by
  have hliteral (text : String) (h : (ascii text).all (· ≤ 0x7f) = true) : Utf8 (ascii text) :=
    utf8_ascii (by simpa using h)
  have huser : Utf8 settings.userId.value :=
    utf8_of_isValidUtf8 (isValidUtf8_of_validateText settings.userId.valid)
  have hlocale : Utf8 (storedLocaleCode settings.locale) := by
    cases settings.locale <;> exact hliteral _ (by decide)
  have hboolean (value : Bool) : Utf8 (booleanText value) := by
    cases value <;> exact hliteral _ (by decide)
  have hdecimal (value : ℕ) : Utf8 (jsonString (decimal value)) :=
    utf8_jsonString (utf8_ascii (decimal_le value))
  have huuid : Utf8 (jsonString settings.installId.uuid.toString) :=
    utf8_jsonString (utf8_ascii (Uuid.toString_le _))
  unfold settingsText
  refine Utf8.append ?_ (hliteral _ (by decide))
  refine .append (.append ?_ (hliteral _ (by decide))) (hboolean _)
  refine .append (.append ?_ (hliteral _ (by decide))) (hboolean _)
  refine .append (.append ?_ (hliteral _ (by decide))) (utf8_jsonString hlocale)
  refine .append (.append ?_ (hliteral _ (by decide))) (hdecimal _)
  refine .append (.append ?_ (hliteral _ (by decide))) (utf8_jsonString huser)
  refine .append (.append ?_ (hliteral _ (by decide))) huuid
  refine .append (.append ?_ (hliteral _ (by decide))) (hdecimal _)
  exact .append (hliteral _ (by decide)) (utf8_jsonString (hliteral _ (by decide)))

theorem length_settingsText_le (hrange : settings.generation < 2 ^ 64) :
    (settingsText settings).length ≤ kMaxSettingsJsonBytes := by
  have hgeneration := length_decimal_le hrange
  have hsequence := length_decimal_le settings.senderSequenceHighWatermark.toNat_lt
  have huuid := settings.installId.uuid.length_toString
  have huser : settings.userId.value.length ≤ 24 :=
    length_le_of_validateText settings.userId.valid
  have hlocale : (storedLocaleCode settings.locale).length ≤ 7 := by
    cases settings.locale <;> decide
  have hboolean (value : Bool) : (booleanText value).length ≤ 5 := by cases value <;> decide
  have hinitialized := hboolean settings.historyInitialized
  have hskip := hboolean settings.skipTitle
  have hgeneration' := length_jsonString_le (decimal settings.generation)
  have hsequence' := length_jsonString_le (decimal settings.senderSequenceHighWatermark.toNat)
  have huuid' := length_jsonString_le settings.installId.uuid.toString
  have huser' := length_jsonString_le settings.userId.value
  have hlocale' := length_jsonString_le (storedLocaleCode settings.locale)
  have hformat : (jsonString kSettingsFormat).length = 25 := by decide
  have hliterals :
      (ascii "\x7b\"format\":").length + (ascii ",\"schema_version\":2,\"generation\":").length +
      (ascii ",\"identity\":\x7b\"install_uuid\":").length + (ascii ",\"user_id\":").length +
      (ascii ",\"sender_sequence_high_watermark\":").length +
      (ascii "\x7d,\"ui\":\x7b\"locale\":").length + (ascii ",\"skip_title\":").length +
      (ascii "\x7d,\"history\":\x7b\"initialized\":").length +
      (ascii "\x7d\x7d\n").length ≤ 300 := by
    decide
  simp only [settingsText, List.length_append, kMaxSettingsJsonBytes]
  omega

end RoundTrip

/-- Every record the writer takes is read back. -/
theorem parseSettingsJson_settingsText {settings : SettingsRecord} (hzero : settings.generation ≠ 0)
    (hrange : settings.generation < 2 ^ 64) :
    parseSettingsJson (settingsText settings) = .ok settings := by
  have hlength := length_settingsText_le settings hrange
  rw [parseSettingsJson, if_neg (by omega), (utf8_settingsText settings).isValidUtf8]
  simp only [Bool.not_true, Bool.false_eq_true, if_false, parse_settingsText]
  exact parseRoot_rootFields settings hzero hrange

theorem serializeSettingsJson_eq {settings : SettingsRecord} (hzero : settings.generation ≠ 0)
    (hrange : settings.generation < 2 ^ 64) :
    serializeSettingsJson settings = .ok (settingsText settings) := by
  have hlength := length_settingsText_le settings hrange
  have hlocale : ¬(storedLocaleCode settings.locale).isEmpty := by
    cases settings.locale <;> decide
  rw [serializeSettingsJson, if_neg hzero, if_neg hlocale, if_neg (by omega)]

/-! ### Documents -/

/-- A record that was read has a generation that can be written, and none of the first
schema skips the title. -/
theorem parseSections_ok {format version generation : Bytes} {identity ui history : JsonObject}
    {settings : SettingsRecord}
    (h : parseSections format version generation identity ui history = .ok settings) :
    settings.generation ≠ 0 ∧ settings.generation < 2 ^ 64 ∧
      (version = ascii "1" → settings.skipTitle = false) := by
  rw [parseSections, Guard.ite_error_eq_ok, Guard.ite_error_eq_ok] at h
  obtain ⟨-, -, h⟩ := h
  rcases hgeneration : parseCanonicalUint64 generation with _ | value
  · simp [hgeneration] at h
  simp only [hgeneration, Guard.ite_error_eq_ok] at h
  obtain ⟨hzero, h⟩ := h
  rcases hidentity : parseIdentity identity with error | ⟨installId, userId, senderSequence⟩
  · simp [hidentity] at h
  rcases hui : parseUi (version = ascii "2") ui with error | ⟨locale, skipTitle⟩
  · simp [hidentity, hui] at h
  rcases hhistory : parseHistory history with error | initialized
  · simp [hidentity, hui, hhistory] at h
  simp only [hidentity, hui, hhistory, Except.ok.injEq] at h
  subst h
  refine ⟨hzero, parseCanonicalUint64_lt hgeneration, ?_⟩
  rintro rfl
  -- without a second schema there is nothing to read
  have hfirst : decide (ascii "1" = ascii "2") = false := by decide
  rw [hfirst, parseUi] at hui
  simp only [Bool.false_eq_true, if_false, Guard.ite_error_eq_ok] at hui
  obtain ⟨-, hui⟩ := hui
  split at hui
  · cases hui
  split at hui
  · rename_i text _
    rcases hlocale : parseLocale text with error | found
    · simp [hlocale, Except.map] at hui
    · simp only [hlocale, Except.map, Except.ok.injEq, Prod.mk.injEq] at hui
      exact hui.2.symm
  · cases hui

theorem parseRoot_ok {root : JsonObject} {settings : SettingsRecord}
    (h : parseRoot root = .ok settings) :
    settings.generation ≠ 0 ∧ settings.generation < 2 ^ 64 ∧
      (member root "schema_version" = some (.number (ascii "1")) → settings.skipTitle = false) := by
  rw [parseRoot, Guard.ite_error_eq_ok] at h
  obtain ⟨-, h⟩ := h
  split at h
  · rename_i format version generation identity ui history _ hversion _ _ _ _
    split at h
    · obtain ⟨hzero, hrange, hfirst⟩ := parseSections_ok h
      refine ⟨hzero, hrange, fun hmember => hfirst ?_⟩
      rw [hversion, Option.some.injEq] at hmember
      exact JsonValue.number.inj hmember
    · cases h
  · cases h

theorem parseSettingsJson_ok {document : Bytes} {settings : SettingsRecord}
    (h : parseSettingsJson document = .ok settings) :
    ∃ root, JsonParser.parse document = .ok (.object root) ∧ parseRoot root = .ok settings := by
  rw [parseSettingsJson, Guard.ite_error_eq_ok, Guard.ite_error_eq_ok] at h
  obtain ⟨-, -, h⟩ := h
  split at h
  · cases h
  · rename_i root hparse
    exact ⟨root, hparse, h⟩
  · cases h

/-- **Settings survive their file.**  A record with a 64-bit generation other than zero is
written within the limit and read back.  A record that was read from a document, whatever
that looks like, is also written and read back, and does not skip the title if the document
is of the first schema. -/
theorem settings_json_round_trip (settings : SettingsRecord) :
    (settings.generation ≠ 0 → settings.generation < 2 ^ 64 →
      ∃ text, serializeSettingsJson settings = .ok text ∧ text.length ≤ kMaxSettingsJsonBytes ∧
        parseSettingsJson text = .ok settings) ∧
    ∀ document, parseSettingsJson document = .ok settings →
      (∃ text, serializeSettingsJson settings = .ok text ∧ parseSettingsJson text = .ok settings) ∧
      ∀ root, JsonParser.parse document = .ok (.object root) →
        member root "schema_version" = some (.number (ascii "1")) → settings.skipTitle = false := by
  refine ⟨fun hzero hrange => ?_, fun document hdocument => ?_⟩
  · exact ⟨settingsText settings, serializeSettingsJson_eq hzero hrange,
      length_settingsText_le settings hrange, parseSettingsJson_settingsText hzero hrange⟩
  · obtain ⟨root, hparse, hroot⟩ := parseSettingsJson_ok hdocument
    obtain ⟨hzero, hrange, hfirst⟩ := parseRoot_ok hroot
    refine ⟨⟨settingsText settings, serializeSettingsJson_eq hzero hrange,
      parseSettingsJson_settingsText hzero hrange⟩, fun other hother hmember => hfirst ?_⟩
    rw [hparse, Except.ok.injEq, JsonValue.object.injEq] at hother
    rwa [hother]

end Lora
