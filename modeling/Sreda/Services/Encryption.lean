import Mathlib.Data.List.TakeWhile
import Sreda.Lib.Base64
import Sreda.Lib.PyText

/-!
# Encrypted values and the rotation of keys

`services/encryption.py`: a text is stored as `v2:<key id>:<nonce>:<ciphertext>`, older ones as `v1:<nonce>:<ciphertext>`;
the keys are a primary one, under which everything new is written, and legacy ones, which are read only.

AES-GCM and PBKDF2 are parameters; what an authenticated cipher promises is `Crypto.Ideal`. `json.loads` is done:
the legacy keys are the object that it yields.

## What is proved

* the envelopes are read back (`decrypt_encrypt`, `decrypt_v1Envelope`), a key id with a colon in it apart;
* what a history of rotations keeps (`rotations`): the last configuration is accepted if and only if every legacy
  material is a raw key, and then it reads what any earlier one has written. A passphrase is no legacy material
  (`passphrase_not_kept`).
-/

namespace Sreda.Services

open Sreda.Lib

/-! ### Keys and ciphers -/

/-- A key of AES-256. -/
abbrev AesKey := {material : Bytes // material.length = 32}

/-- `AESGCM(key).encrypt` and `.decrypt`, and the derivation of a key from a passphrase. -/
structure Crypto where
  encrypt : AesKey → (nonce : Bytes) → (data : Bytes) → Bytes
  /-- The bytes, or the type of the exception. -/
  decrypt : AesKey → (nonce : Bytes) → (ciphertext : Bytes) → Except String Bytes
  pbkdf2 : (passphrase salt : Bytes) → AesKey

/-- An ideal authenticated cipher: a key reads what it has written, and no other key reads it. -/
structure Crypto.Ideal (crypto : Crypto) : Prop where
  decrypt_encrypt : ∀ key nonce data, nonce.length = 12 → crypto.decrypt key nonce (crypto.encrypt key nonce data) = .ok data
  decrypt_foreign : ∀ key key' nonce data, key ≠ key' →
    ∃ type, crypto.decrypt key' nonce (crypto.encrypt key nonce data) = .error type

/-- What the module raises: an `EncryptionConfigError`, or what a library raises. -/
inductive EncryptionError where
  | notConfigured
  | legacyNotJson
  | legacyNotObject
  | passphraseWithoutSalt
  | primaryMissing (keyId : String)
  | unsupportedVersion (version : String)
  | invalidFormat (version : String)
  | unknownKeyId (keyId : String)
  | noKeyDecrypts
  | raised (type : String)
deriving DecidableEq

/-- The text of an `EncryptionConfigError`; `repr` is that of a string. -/
def EncryptionError.message (repr : String → String) : EncryptionError → String
  | notConfigured => "SREDA_ENCRYPTION_KEY is not configured"
  | legacyNotJson => "SREDA_ENCRYPTION_LEGACY_KEYS is not valid JSON"
  | legacyNotObject => "SREDA_ENCRYPTION_LEGACY_KEYS must be a JSON object"
  | passphraseWithoutSalt => "SREDA_ENCRYPTION_KEY looks like a passphrase (not a raw 32-byte key). Set " ++
      "SREDA_ENCRYPTION_KEY_SALT to enable PBKDF2 key derivation, or provide a proper 32-byte key in base64/hex."
  | primaryMissing keyId => "primary key_id " ++ repr keyId ++ " not found in the key map"
  | unsupportedVersion version => "Unsupported encryption payload version: " ++ version
  | invalidFormat version => version ++ " payload has invalid format"
  | unknownKeyId keyId => "Unknown encryption key_id: " ++ repr keyId
  | noKeyDecrypts => "None of the known keys could decrypt the v1 payload"
  | raised type => type

/-! ### The material of a key -/

/-- `_pad_base64`. -/
def padBase64 (text : List Char) : List Char := text ++ List.replicate ((4 - text.length % 4) % 4) '='

/-- 32 bytes. -/
def asKey? (data : Option Bytes) : Option AesKey :=
  match data with
  | some data => if h : data.length = 32 then some ⟨data, h⟩ else none
  | none => none

/-- The material that is a key as it is: in base64, its padding added where it lacks, or in hexadecimal digits. -/
def rawKey? (text : List Char) : Option AesKey :=
  asKey? (Base64.decode text) <|> asKey? (Base64.decode (padBase64 text)) <|>
    if text.length = 64 then asKey? (fromHex text) else none

/-- `_normalize_key`. -/
def normalizeKey (crypto : Crypto) (rawKey : String) (salt : Option String) : Except EncryptionError AesKey :=
  let text := PyText.strip rawKey.toList
  match rawKey? text with
  | some key => .ok key
  | none =>
    match salt.filter (· ≠ "") with
    | none => .error .passphraseWithoutSalt
    | some salt => .ok (crypto.pbkdf2 (utf8 (String.ofList text)) (utf8 salt))

/-! ### The service -/

/-- `keys[kid] = material`, in a dict. -/
def setKey (keyId : String) (key : AesKey) : List (String × AesKey) → List (String × AesKey)
  | [] => [(keyId, key)]
  | (other, key') :: rest => if other = keyId then (keyId, key) :: rest else (other, key') :: setKey keyId key rest

/-- `EncryptionService`, whose primary key is one of its keys. -/
structure EncryptionService where
  primaryKeyId : String
  keys : List (String × AesKey)
  primary : (keys.lookup primaryKeyId).isSome = true

namespace EncryptionService

variable (crypto : Crypto) (service : EncryptionService)

/-- The key that new values are written under. -/
def primaryKey : AesKey := (service.keys.lookup service.primaryKeyId).get service.primary

/-- `_key_order`. -/
def keyOrder : List String := service.primaryKeyId :: (service.keys.map Prod.fst).filter (· ≠ service.primaryKeyId)

end EncryptionService

/-- A value of the second version. -/
def v2Envelope (keyId : String) (nonce ciphertext : Bytes) : List Char :=
  "v2:".toList ++ (keyId.toList ++ ':' :: (Base64.encode nonce ++ ':' :: Base64.encode ciphertext))

/-- A value of the first version. -/
def v1Envelope (nonce ciphertext : Bytes) : List Char :=
  "v1:".toList ++ (Base64.encode nonce ++ ':' :: Base64.encode ciphertext)

/-- `value.split(":", maxsplit)`. -/
def splitColon : ℕ → List Char → List (List Char)
  | 0, text => [text]
  | n + 1, text =>
    match text.dropWhile (· ≠ ':') with
    | [] => [text]
    | _ :: rest => text.takeWhile (· ≠ ':') :: splitColon n rest

/-- A part of an envelope. -/
def decodePart (part : List Char) : Except EncryptionError Bytes :=
  match Base64.decode part with
  | some data => .ok data
  | none => .error (.raised (if part.all fun c => c.toNat < 128 then "Error" else "UnicodeEncodeError"))

/-- The text that a key reads. -/
def decryptText (crypto : Crypto) (key : AesKey) (nonce ciphertext : Bytes) : Except EncryptionError String :=
  match crypto.decrypt key nonce ciphertext with
  | .error type => .error (.raised type)
  | .ok data =>
    match utf8Decode data with
    | none => .error (.raised "UnicodeDecodeError")
    | some text => .ok text

namespace EncryptionService

variable (crypto : Crypto) (service : EncryptionService)

/-- `encrypt`, with the nonce that `os.urandom` yields. -/
def encrypt (nonce : Bytes) (value : String) : List Char :=
  v2Envelope service.primaryKeyId nonce (crypto.encrypt service.primaryKey nonce (utf8 value))

/-- `_decrypt_v2`. -/
def decryptV2 (parts : List (List Char)) : Except EncryptionError String :=
  match parts with
  | [_, keyId, nonceB64, ctB64] =>
    match service.keys.lookup (String.ofList keyId) with
    | none => .error (.unknownKeyId (String.ofList keyId))
    | some key => do decryptText crypto key (← decodePart nonceB64) (← decodePart ctB64)
  | _ => .error (.invalidFormat "v2")

/-- `_decrypt_v1`: the first of the keys that reads it. -/
def decryptV1 (parts : List (List Char)) : Except EncryptionError String :=
  match parts with
  | [_, nonceB64, ctB64] => do
    let nonce ← decodePart nonceB64
    let ciphertext ← decodePart ctB64
    match service.keyOrder.findSome? fun keyId =>
        (service.keys.lookup keyId).bind fun key => (decryptText crypto key nonce ciphertext).toOption with
    | some text => return text
    | none => throw .noKeyDecrypts
  | _ => .error (.invalidFormat "v1")

/-- `decrypt`. -/
def decrypt (value : List Char) : Except EncryptionError String :=
  let parts := splitColon 3 value
  let version := parts.headD []
  if version = "v1".toList then service.decryptV1 crypto parts
  else if version = "v2".toList then service.decryptV2 crypto parts
  else .error (.unsupportedVersion (String.ofList version))

end EncryptionService

/-! ### The settings -/

/-- `encryption_legacy_keys`, after `json.loads`. In the object, a value that is no string is `none`. -/
inductive LegacyKeys where
  | unset
  | notJson
  | notObject
  | object (entries : List (String × Option String)) (once : (entries.map Prod.fst).Nodup)

/-- The settings of the encryption. -/
structure EncryptionSettings where
  encryptionKey : Option String
  encryptionKeyId : String := "primary"
  encryptionKeySalt : Option String := none
  encryptionLegacyKeys : LegacyKeys := .unset

section Load

variable (crypto : Crypto)

/-- The legacy keys are added one by one; none of them has a salt. -/
def addLegacyKeys : List (String × AesKey) → List (String × Option String) → Except EncryptionError (List (String × AesKey))
  | keys, [] => .ok keys
  | keys, (keyId, raw) :: rest =>
    match raw with
    | none => .error (.raised "AttributeError")
    | some raw =>
      match normalizeKey crypto raw none with
      | .error e => .error e
      | .ok key => addLegacyKeys (setKey keyId key keys) rest

/-- `EncryptionService.__init__`. -/
def EncryptionService.make (primaryKeyId : String) (keys : List (String × AesKey)) : Except EncryptionError EncryptionService :=
  if h : (keys.lookup primaryKeyId).isSome = true then .ok ⟨primaryKeyId, keys, h⟩
  else .error (.primaryMissing primaryKeyId)

/-- `get_encryption_service`. -/
def getEncryptionService (settings : EncryptionSettings) : Except EncryptionError EncryptionService :=
  match settings.encryptionKey.filter (· ≠ "") with
  | none => .error .notConfigured
  | some rawKey => do
    let primary ← normalizeKey crypto rawKey settings.encryptionKeySalt
    let keys := [(settings.encryptionKeyId, primary)]
    match settings.encryptionLegacyKeys with
    | .unset => EncryptionService.make settings.encryptionKeyId keys
    | .notJson => throw .legacyNotJson
    | .notObject => throw .legacyNotObject
    | .object entries _ => EncryptionService.make settings.encryptionKeyId (← addLegacyKeys crypto keys entries)

end Load

/-! ### Envelopes are read back -/

theorem splitColon_append {head : List Char} (h : ':' ∉ head) (n : ℕ) (rest : List Char) :
    splitColon (n + 1) (head ++ ':' :: rest) = head :: splitColon n rest := by
  have hall : ∀ c ∈ head, (decide (c ≠ ':')) = true := fun c hc => decide_eq_true fun heq => h (heq ▸ hc)
  rw [splitColon, List.dropWhile_append_of_pos hall, List.takeWhile_append_of_pos hall]
  simp

theorem splitColon_of_not_mem {text : List Char} (h : ':' ∉ text) (n : ℕ) : splitColon n text = [text] := by
  cases n with
  | zero => rfl
  | succ n =>
    have hall : ∀ c ∈ text, (decide (c ≠ ':')) = true := fun c hc => decide_eq_true fun heq => h (heq ▸ hc)
    rw [splitColon, List.dropWhile_eq_nil_iff.mpr hall]

theorem colon_not_mem_encode (data : Bytes) : ':' ∉ Base64.encode data := Base64.not_mem_encode (by decide) (by decide)

theorem decodePart_encode (data : Bytes) : decodePart (Base64.encode data) = .ok data := by
  rw [decodePart, Base64.decode_encode]

namespace EncryptionService

variable {crypto : Crypto} (service : EncryptionService)

/-- A value of the second version is read with the key that it names. -/
theorem decrypt_v2Envelope {keyId : String} (h : ':' ∉ keyId.toList) (nonce ciphertext : Bytes) :
    service.decrypt crypto (v2Envelope keyId nonce ciphertext) =
      match service.keys.lookup keyId with
      | none => .error (.unknownKeyId keyId)
      | some key => decryptText crypto key nonce ciphertext := by
  have hparts : splitColon 3 (v2Envelope keyId nonce ciphertext) =
      ["v2".toList, keyId.toList, Base64.encode nonce, Base64.encode ciphertext] := by
    rw [show v2Envelope keyId nonce ciphertext = "v2".toList ++ ':' :: (keyId.toList ++ ':' ::
      (Base64.encode nonce ++ ':' :: Base64.encode ciphertext)) from rfl, splitColon_append (by decide), splitColon_append h,
      splitColon_append (colon_not_mem_encode nonce), splitColon]
  rw [decrypt, hparts]
  simp only [List.headD_cons, if_neg (by decide : ¬ "v2".toList = "v1".toList), if_true, decryptV2, String.ofList_toList]
  cases service.keys.lookup keyId with
  | none => rfl
  | some key =>
    rw [decodePart_encode, decodePart_encode]
    rfl

/-- A value that names a key which is not there is refused, whatever follows. -/
theorem decrypt_unknown {keyId : String} (h : ':' ∉ keyId.toList) (hkey : service.keys.lookup keyId = none) (rest : List Char) :
    ∃ e, service.decrypt crypto ("v2:".toList ++ (keyId.toList ++ ':' :: rest)) = .error e := by
  have hparts : splitColon 3 ("v2:".toList ++ (keyId.toList ++ ':' :: rest)) =
      "v2".toList :: keyId.toList :: splitColon 1 rest := by
    rw [show "v2:".toList ++ (keyId.toList ++ ':' :: rest) = "v2".toList ++ ':' :: (keyId.toList ++ ':' :: rest) from rfl,
      splitColon_append (by decide), splitColon_append h]
  rw [decrypt, hparts]
  simp only [List.headD_cons, if_neg (by decide : ¬ "v2".toList = "v1".toList), if_true, decryptV2]
  split
  next heq =>
    simp only [List.cons.injEq] at heq
    obtain ⟨-, rfl, -⟩ := heq
    rw [String.ofList_toList, hkey]
    exact ⟨_, rfl⟩
  · exact ⟨_, rfl⟩

theorem decrypt_v1Envelope (nonce ciphertext : Bytes) :
    service.decrypt crypto (v1Envelope nonce ciphertext) =
      match service.keyOrder.findSome? fun keyId =>
        (service.keys.lookup keyId).bind fun key => (decryptText crypto key nonce ciphertext).toOption with
      | some text => .ok text
      | none => .error .noKeyDecrypts := by
  have hparts : splitColon 3 (v1Envelope nonce ciphertext) =
      ["v1".toList, Base64.encode nonce, Base64.encode ciphertext] := by
    rw [show v1Envelope nonce ciphertext = "v1".toList ++ ':' :: (Base64.encode nonce ++ ':' :: Base64.encode ciphertext) from rfl,
      splitColon_append (by decide), splitColon_append (colon_not_mem_encode nonce),
      splitColon_of_not_mem (colon_not_mem_encode ciphertext)]
  rw [decrypt, hparts]
  simp only [List.headD_cons, if_true, decryptV1, decodePart_encode]
  rfl

variable {key : AesKey} {settings : EncryptionSettings}

theorem mem_keyOrder {keyId : String} (h : service.keys.lookup keyId = some key) : keyId ∈ service.keyOrder := by
  by_cases hprimary : keyId = service.primaryKeyId
  · exact hprimary ▸ List.mem_cons_self
  · obtain ⟨l₁, l₂, hkeys, -⟩ := List.lookup_eq_some_iff.mp h
    exact List.mem_cons_of_mem _ (List.mem_filter.mpr ⟨by simp [hkeys], by simpa using hprimary⟩)

theorem lookup_primaryKey : service.keys.lookup service.primaryKeyId = some service.primaryKey := (Option.some_get _).symm

end EncryptionService

section Ideal

variable {crypto : Crypto} (hideal : crypto.Ideal)
include hideal

theorem decryptText_own (key : AesKey) {nonce : Bytes} (hnonce : nonce.length = 12) (text : String) :
    decryptText crypto key nonce (crypto.encrypt key nonce (utf8 text)) = .ok text := by
  simp only [decryptText, hideal.decrypt_encrypt key nonce _ hnonce, utf8Decode_utf8]

theorem decryptText_foreign {key' : AesKey} (h : key ≠ key') (nonce data : Bytes) :
    ∃ e, decryptText crypto key' nonce (crypto.encrypt key nonce data) = .error e := by
  obtain ⟨type, hfails⟩ := hideal.decrypt_foreign key key' nonce data h
  exact ⟨.raised type, by simp only [decryptText, hfails]⟩

/-- A value of the first version is read if its key is one of the keys, whatever their order. -/
theorem decrypt_v1_own (service : EncryptionService) {keyId : String} (hkey : service.keys.lookup keyId = some key)
    {nonce : Bytes} (hnonce : nonce.length = 12) (text : String) :
    service.decrypt crypto (v1Envelope nonce (crypto.encrypt key nonce (utf8 text))) = .ok text := by
  have hread : ∀ other, (service.keys.lookup other).bind (fun key' =>
      (decryptText crypto key' nonce (crypto.encrypt key nonce (utf8 text))).toOption) = some text ∨
      (service.keys.lookup other).bind (fun key' =>
        (decryptText crypto key' nonce (crypto.encrypt key nonce (utf8 text))).toOption) = none := by
    intro other
    cases hother : service.keys.lookup other with
    | none => exact .inr rfl
    | some key' =>
      by_cases heq : key = key'
      · subst heq
        exact .inl (by simp [decryptText_own hideal key hnonce text, Except.toOption])
      · obtain ⟨e, he⟩ := decryptText_foreign hideal heq nonce (utf8 text)
        exact .inr (by simp [he, Except.toOption])
  rw [service.decrypt_v1Envelope]
  cases hfirst : service.keyOrder.findSome? fun keyId => (service.keys.lookup keyId).bind fun key' =>
      (decryptText crypto key' nonce (crypto.encrypt key nonce (utf8 text))).toOption with
  | some found =>
    obtain ⟨other, -, hfound⟩ := List.exists_of_findSome?_eq_some hfirst
    rcases hread other with hsome | hnone
    · rw [hsome] at hfound
      rw [Option.some.inj hfound]
    · rw [hnone] at hfound
      cases hfound
  | none =>
    -- the key itself is tried
    have hnone := List.findSome?_eq_none_iff.mp hfirst keyId (service.mem_keyOrder hkey)
    rw [hkey, Option.bind_some, decryptText_own hideal key hnonce text] at hnone
    cases hnone

theorem decrypt_v1_foreign (service : EncryptionService) (hkey : ∀ keyId, service.keys.lookup keyId ≠ some key)
    (nonce data : Bytes) : service.decrypt crypto (v1Envelope nonce (crypto.encrypt key nonce data)) = .error .noKeyDecrypts := by
  rw [service.decrypt_v1Envelope, List.findSome?_eq_none_iff.mpr]
  intro keyId _
  cases hother : service.keys.lookup keyId with
  | none => rfl
  | some key' =>
    obtain ⟨e, he⟩ := decryptText_foreign hideal (fun heq : key = key' => hkey keyId (heq ▸ hother)) nonce data
    rw [Option.bind_some, he]
    rfl

end Ideal

/-! ### Loading the keys -/

theorem lookup_cons_ite (other keyId : String) (key : AesKey) (keys : List (String × AesKey)) :
    ((keyId, key) :: keys).lookup other = if other = keyId then some key else keys.lookup other := by
  rw [List.lookup_cons]
  by_cases h : other = keyId
  · simp [h]
  · simp [h, beq_false_of_ne h]

theorem lookup_setKey (keyId : String) (key : AesKey) (other : String) (keys : List (String × AesKey)) :
    (setKey keyId key keys).lookup other = if other = keyId then some key else keys.lookup other := by
  induction keys with
  | nil => exact lookup_cons_ite other keyId key []
  | cons entry rest ih =>
    obtain ⟨entryId, entryKey⟩ := entry
    unfold setKey
    split
    next hentry =>
      subst hentry
      rw [lookup_cons_ite, lookup_cons_ite]
      by_cases hother : other = entryId
      · rw [if_pos hother, if_pos hother]
      · rw [if_neg hother, if_neg hother, if_neg hother]
    next hentry =>
      rw [lookup_cons_ite, lookup_cons_ite, ih]
      by_cases hother : other = entryId
      · rw [if_pos hother, if_pos hother, if_neg (hother ▸ hentry)]
      · rw [if_neg hother, if_neg hother]

/-- Material that is a key as it is. -/
def RawMaterial (raw : Option String) : Prop := ∃ text key, raw = some text ∧ rawKey? (PyText.strip text.toList) = some key

theorem normalizeKey_of_raw {crypto : Crypto} {text : String}
    (h : rawKey? (PyText.strip text.toList) = some key) (salt : Option String) : normalizeKey crypto text salt = .ok key := by
  simp only [normalizeKey, h]

/-- Without a salt, nothing but a raw key is accepted. -/
theorem normalizeKey_unsalted {crypto : Crypto} {text : String} :
    normalizeKey crypto text none = .ok key ↔ rawKey? (PyText.strip text.toList) = some key := by
  unfold normalizeKey
  dsimp only
  split
  next found hfound => simp [hfound]
  next hnone => simp [hnone]

section Load

variable {crypto : Crypto}

/-- The legacy keys are added if and only if each of them is a raw key. -/
theorem addLegacyKeys_ok_iff (entries : List (String × Option String)) (keys : List (String × AesKey)) :
    (∃ keys', addLegacyKeys crypto keys entries = .ok keys') ↔ ∀ entry ∈ entries, RawMaterial entry.2 := by
  induction entries generalizing keys with
  | nil => simp [addLegacyKeys]
  | cons entry rest ih =>
    obtain ⟨keyId, raw⟩ := entry
    rw [List.forall_mem_cons]
    cases raw with
    | none => simp [addLegacyKeys, RawMaterial]
    | some raw =>
      cases hkey : normalizeKey crypto raw none with
      | error e =>
        have hnot : ¬ RawMaterial (some raw) := by
          rintro ⟨text, key, heq, hraw⟩
          rw [Option.some.inj heq, normalizeKey_unsalted.mpr hraw] at hkey
          cases hkey
        simp [addLegacyKeys, hkey, hnot]
      | ok key =>
        have hraw : RawMaterial (some raw) := ⟨raw, key, rfl, normalizeKey_unsalted.mp hkey⟩
        simp only [addLegacyKeys, hkey, ih, hraw, true_and]

/-- The keys after the legacy ones are added: these, and the others as they were. -/
theorem addLegacyKeys_lookup {entries : List (String × Option String)} {keys keys' : List (String × AesKey)}
    (h : addLegacyKeys crypto keys entries = .ok keys') (hnodup : (entries.map Prod.fst).Nodup) :
    (∀ keyId, keyId ∉ entries.map Prod.fst → keys'.lookup keyId = keys.lookup keyId) ∧
      ∀ keyId text, (keyId, some text) ∈ entries →
        ∃ key, rawKey? (PyText.strip text.toList) = some key ∧ keys'.lookup keyId = some key := by
  induction entries generalizing keys with
  | nil =>
    cases h
    exact ⟨fun _ _ => rfl, fun _ _ hmem => absurd hmem List.not_mem_nil⟩
  | cons entry rest ih =>
    obtain ⟨entryId, raw⟩ := entry
    cases raw with
    | none => cases h
    | some raw =>
      cases hkey : normalizeKey crypto raw none with
      | error e =>
        simp only [addLegacyKeys, hkey] at h
        cases h
      | ok key =>
        simp only [addLegacyKeys, hkey] at h
        rw [List.map_cons, List.nodup_cons] at hnodup
        obtain ⟨hothers, hentries⟩ := ih h hnodup.2
        constructor
        · intro keyId hkeyId
          rw [List.map_cons, List.mem_cons, not_or] at hkeyId
          rw [hothers keyId hkeyId.2, lookup_setKey, if_neg hkeyId.1]
        · intro keyId text hmem
          rcases List.mem_cons.mp hmem with heq | hmem
          · obtain ⟨rfl, htext⟩ := Prod.mk.inj heq
            obtain rfl := Option.some.inj htext
            exact ⟨key, normalizeKey_unsalted.mp hkey, by rw [hothers _ hnodup.1, lookup_setKey, if_pos rfl]⟩
          · exact hentries keyId text hmem

theorem EncryptionService.make_ok {primaryKeyId : String} {keys : List (String × AesKey)} {service : EncryptionService}
    (h : EncryptionService.make primaryKeyId keys = .ok service) : service.primaryKeyId = primaryKeyId ∧ service.keys = keys := by
  unfold EncryptionService.make at h
  split at h
  · cases h
    exact ⟨rfl, rfl⟩
  · cases h

theorem EncryptionService.make_isOk (primaryKeyId : String) {keys : List (String × AesKey)}
    (h : (keys.lookup primaryKeyId).isSome = true) : ∃ service, EncryptionService.make primaryKeyId keys = .ok service :=
  ⟨⟨primaryKeyId, keys, h⟩, dif_pos h⟩

end Load

/-! ### Histories of rotations -/

/-- The legacy keys of a configuration. -/
def EncryptionSettings.legacyEntries (settings : EncryptionSettings) : List (String × Option String) :=
  match settings.encryptionLegacyKeys with
  | .object entries _ => entries
  | _ => []

/-- The configuration has a primary key of its own, with a material that is accepted for one. -/
structure EncryptionSettings.Primary (crypto : Crypto) (settings : EncryptionSettings) : Prop where
  material : ∃ raw key, settings.encryptionKey = some raw ∧ raw ≠ "" ∧ normalizeKey crypto raw settings.encryptionKeySalt = .ok key
  own : settings.encryptionKeyId ∉ settings.legacyEntries.map Prod.fst
  json : settings.encryptionLegacyKeys = .unset ∨ ∃ entries once, settings.encryptionLegacyKeys = .object entries once

/-- The later configuration has the primary of the earlier one among its legacy keys. -/
def Keeps (before after : EncryptionSettings) : Prop :=
  (before.encryptionKeyId, before.encryptionKey) ∈ after.legacyEntries

/-- A history of configurations: each has a new primary, and keeps all former ones. -/
structure Rotations (crypto : Crypto) (history : List EncryptionSettings) : Prop where
  primary : ∀ settings ∈ history, settings.Primary crypto
  keeps : history.Pairwise Keeps

section Rotations

variable {crypto : Crypto}

theorem EncryptionSettings.legacyEntries_nodup (settings : EncryptionSettings) :
    (settings.legacyEntries.map Prod.fst).Nodup := by
  unfold EncryptionSettings.legacyEntries
  split
  next once _ => exact once
  · exact List.nodup_nil

/-- A configuration with its own primary is loaded by adding its legacy keys to this one. -/
theorem getEncryptionService_eq_ok_iff (hprimary : settings.Primary crypto) :
    ∃ raw key, settings.encryptionKey = some raw ∧ normalizeKey crypto raw settings.encryptionKeySalt = .ok key ∧
      ∀ service, getEncryptionService crypto settings = .ok service ↔
        ∃ keys, addLegacyKeys crypto [(settings.encryptionKeyId, key)] settings.legacyEntries = .ok keys ∧
          EncryptionService.make settings.encryptionKeyId keys = .ok service := by
  obtain ⟨raw, key, hraw, hne, hkey⟩ := hprimary.material
  refine ⟨raw, key, hraw, hkey, fun service => ?_⟩
  have hfilter : settings.encryptionKey.filter (· ≠ "") = some raw := by simp [hraw, Option.filter, hne]
  unfold getEncryptionService EncryptionSettings.legacyEntries
  rw [hfilter]
  dsimp only
  rw [hkey]
  rcases hprimary.json with hunset | ⟨entries, once, hobject⟩
  · rw [hunset]
    refine ⟨fun h => ⟨_, rfl, h⟩, fun ⟨keys, hkeys, h⟩ => ?_⟩
    obtain rfl := Except.ok.inj hkeys
    exact h
  · rw [hobject]
    dsimp only [bind, Except.bind]
    cases addLegacyKeys crypto [(settings.encryptionKeyId, key)] entries with
    | error e => exact ⟨nofun, fun ⟨_, hkeys, _⟩ => (by cases hkeys)⟩
    | ok keys =>
      refine ⟨fun h => ⟨keys, rfl, h⟩, fun ⟨_, hkeys, h⟩ => ?_⟩
      obtain rfl := Except.ok.inj hkeys
      exact h

/-- What a configuration with its own primary loads: this key, and those of its legacy entries. -/
theorem getEncryptionService_ok (hprimary : settings.Primary crypto) {service : EncryptionService}
    (h : getEncryptionService crypto settings = .ok service) :
    (∃ raw key, settings.encryptionKey = some raw ∧ normalizeKey crypto raw settings.encryptionKeySalt = .ok key ∧
      service.primaryKeyId = settings.encryptionKeyId ∧ service.keys.lookup settings.encryptionKeyId = some key) ∧
    (∀ keyId, keyId ≠ settings.encryptionKeyId → keyId ∉ settings.legacyEntries.map Prod.fst → service.keys.lookup keyId = none) ∧
    ∀ keyId text, (keyId, some text) ∈ settings.legacyEntries →
      ∃ key, rawKey? (PyText.strip text.toList) = some key ∧ service.keys.lookup keyId = some key := by
  obtain ⟨raw, key, hraw, hkey, hload⟩ := getEncryptionService_eq_ok_iff hprimary
  obtain ⟨keys, hadd, hmake⟩ := (hload service).mp h
  obtain ⟨hid, hkeys⟩ := EncryptionService.make_ok hmake
  obtain ⟨hothers, hentries⟩ := addLegacyKeys_lookup hadd settings.legacyEntries_nodup
  rw [hid, hkeys]
  refine ⟨⟨raw, key, hraw, hkey, rfl, ?_⟩, fun keyId hne hmem => ?_, hentries⟩
  · rw [hothers _ hprimary.own, lookup_cons_ite, if_pos rfl]
  · rw [hothers _ hmem, lookup_cons_ite, if_neg hne]
    rfl

/-- A configuration with its own primary is accepted if and only if every legacy material is a raw key. -/
theorem getEncryptionService_isOk_iff (hprimary : settings.Primary crypto) :
    (∃ service, getEncryptionService crypto settings = .ok service) ↔ ∀ entry ∈ settings.legacyEntries, RawMaterial entry.2 := by
  obtain ⟨raw, key, hraw, hkey, hload⟩ := getEncryptionService_eq_ok_iff hprimary
  have hadds : (∃ keys, addLegacyKeys crypto [(settings.encryptionKeyId, key)] settings.legacyEntries = .ok keys) ↔ _ :=
    addLegacyKeys_ok_iff settings.legacyEntries [(settings.encryptionKeyId, key)]
  rw [← hadds]
  constructor
  · rintro ⟨service, h⟩
    obtain ⟨keys, hadd, -⟩ := (hload service).mp h
    exact ⟨keys, hadd⟩
  · rintro ⟨keys, hadd⟩
    have hlookup : keys.lookup settings.encryptionKeyId = some key := by
      rw [(addLegacyKeys_lookup hadd settings.legacyEntries_nodup).1 _ hprimary.own, lookup_cons_ite, if_pos rfl]
    obtain ⟨service, hmake⟩ := EncryptionService.make_isOk settings.encryptionKeyId (by rw [hlookup]; rfl)
    exact ⟨service, (hload service).mpr ⟨keys, hadd, hmake⟩⟩

/-- The last configuration has the key of every earlier one under its id. -/
theorem Rotations.lookup {history : List EncryptionSettings} {last : EncryptionSettings}
    (hrot : Rotations crypto (history ++ [last])) {service : EncryptionService}
    (h : getEncryptionService crypto last = .ok service) (hmem : settings ∈ history ++ [last])
    {writer : EncryptionService} (hwriter : getEncryptionService crypto settings = .ok writer) :
    writer.primaryKeyId = settings.encryptionKeyId ∧ service.keys.lookup settings.encryptionKeyId = some writer.primaryKey := by
  obtain ⟨⟨raw, key, hraw, hkey, hid, hlookup⟩, -⟩ := getEncryptionService_ok (hrot.primary settings hmem) hwriter
  have hprimary : writer.primaryKey = key := by
    have hown := writer.lookup_primaryKey
    rw [hid, hlookup] at hown
    exact (Option.some.inj hown).symm
  refine ⟨hid, ?_⟩
  rcases List.mem_append.mp hmem with hbefore | hlast
  · have hkept := (List.pairwise_append.mp hrot.keeps).2.2 settings hbefore last (List.mem_singleton_self _)
    rw [Keeps, hraw] at hkept
    obtain ⟨-, -, hlegacy⟩ := getEncryptionService_ok (hrot.primary last (by simp)) h
    obtain ⟨key', hraw', hlookup'⟩ := hlegacy _ _ hkept
    -- raw material is the same key with and without a salt
    rw [normalizeKey_of_raw hraw'] at hkey
    rw [hlookup', hprimary, Except.ok.inj hkey]
  · obtain rfl := List.mem_singleton.mp hlast
    rw [hwriter] at h
    obtain rfl := Except.ok.inj h
    rw [hlookup, hprimary]

/-- **What a history of rotations keeps.** The last configuration is accepted if and only if every material among its
legacy keys is a raw key. Then it reads every text that an earlier configuration has written, under a key id without a
colon, and every text of the first version under the key of an earlier one; a value that names another key is refused,
and so is one of the first version that was written under another key. -/
theorem rotations (hideal : crypto.Ideal) {history : List EncryptionSettings} {last : EncryptionSettings}
    (hrot : Rotations crypto (history ++ [last])) :
    ((∃ service, getEncryptionService crypto last = .ok service) ↔ ∀ entry ∈ last.legacyEntries, RawMaterial entry.2) ∧
    ∀ service, getEncryptionService crypto last = .ok service →
      (∀ settings ∈ history ++ [last], ∀ writer, getEncryptionService crypto settings = .ok writer →
        ∀ (nonce : Bytes) (text : String), nonce.length = 12 →
          (':' ∉ settings.encryptionKeyId.toList → service.decrypt crypto (writer.encrypt crypto nonce text) = .ok text) ∧
          service.decrypt crypto (v1Envelope nonce (crypto.encrypt writer.primaryKey nonce (utf8 text))) = .ok text) ∧
      (∀ keyId : String, ':' ∉ keyId.toList → keyId ≠ last.encryptionKeyId → keyId ∉ last.legacyEntries.map Prod.fst →
        ∀ rest, ∃ e, service.decrypt crypto ("v2:".toList ++ (keyId.toList ++ ':' :: rest)) = .error e) ∧
      ∀ key, (∀ keyId, service.keys.lookup keyId ≠ some key) → ∀ nonce data,
        service.decrypt crypto (v1Envelope nonce (crypto.encrypt key nonce data)) = .error .noKeyDecrypts := by
  have hlast := hrot.primary last (by simp)
  refine ⟨getEncryptionService_isOk_iff hlast, fun service h => ⟨?_, ?_, ?_⟩⟩
  · intro settings hmem writer hwriter nonce text hnonce
    obtain ⟨hid, hlookup⟩ := hrot.lookup h hmem hwriter
    constructor
    · intro hcolon
      rw [EncryptionService.encrypt, hid, service.decrypt_v2Envelope hcolon, hlookup]
      exact decryptText_own hideal _ hnonce text
    · exact decrypt_v1_own hideal service hlookup hnonce text
  · intro keyId hcolon hother hlegacy rest
    obtain ⟨-, hnone, -⟩ := getEncryptionService_ok hlast h
    exact service.decrypt_unknown hcolon (hnone keyId hother hlegacy) rest
  · exact fun key hkey nonce data => decrypt_v1_foreign hideal service hkey nonce data

end Rotations

/-! #### Two configurations -/

/-- A cipher that writes the key and the nonce in front of the data. -/
def markingCrypto : Crypto where
  encrypt key nonce data := key.1 ++ (nonce ++ data)
  decrypt key nonce ciphertext :=
    if ciphertext.take 32 = key.1 ∧ (ciphertext.drop 32).take nonce.length = nonce then .ok (ciphertext.drop (32 + nonce.length))
    else .error "InvalidTag"
  pbkdf2 passphrase salt := ⟨(passphrase ++ salt ++ List.replicate 32 0).take 32, by
    rw [List.length_take, List.length_append, List.length_append, List.length_replicate]
    omega⟩

theorem markingCrypto_ideal : markingCrypto.Ideal where
  decrypt_encrypt key nonce data _ := by
    have hlength := key.2
    simp [markingCrypto, hlength, List.take_append, List.drop_append]
  decrypt_foreign key key' nonce data hne := by
    refine ⟨"InvalidTag", if_neg fun h => hne (Subtype.ext ?_)⟩
    have htake : (key.1 ++ (nonce ++ data)).take 32 = key.1 := by
      rw [List.take_append_of_le_length (by rw [key.2]), List.take_of_length_le (by rw [key.2])]
    exact htake.symm.trans h.1

/-- The first configuration, with the key that the second one keeps. -/
def firstSettings (rawKey : String) (salt : Option String) : EncryptionSettings where
  encryptionKey := some rawKey
  encryptionKeyId := "old_2025"
  encryptionKeySalt := salt

def secondSettings (rawKey : String) (salt : Option String) : EncryptionSettings where
  encryptionKey := some "QkJCQkJCQkJCQkJCQkJCQkJCQkJCQkJCQkJCQkJCQkI="
  encryptionKeyId := "new_2026"
  encryptionKeySalt := salt
  encryptionLegacyKeys := .object [("old_2025", some rawKey)] (by simp)

theorem rotations_settings {rawKey : String} {salt : Option String} (hne : rawKey ≠ "")
    (hkey : normalizeKey markingCrypto rawKey salt = .ok key) :
    Rotations markingCrypto ([firstSettings rawKey salt] ++ [secondSettings rawKey salt]) where
  primary settings hmem := by
    simp only [List.cons_append, List.nil_append, List.mem_cons, List.not_mem_nil, or_false] at hmem
    rcases hmem with rfl | rfl
    · exact ⟨⟨rawKey, key, rfl, hne, hkey⟩, List.not_mem_nil, .inl rfl⟩
    · refine ⟨⟨_, ⟨List.replicate 32 66, rfl⟩, rfl, by decide, normalizeKey_of_raw rfl salt⟩, ?_, .inr ⟨_, _, rfl⟩⟩
      simp [secondSettings, EncryptionSettings.legacyEntries]
  keeps := by
    rw [List.cons_append, List.nil_append, List.pairwise_pair]
    exact List.mem_singleton_self _

/-- A raw key is kept. -/
theorem rotations_raw :
    ∃ service, getEncryptionService markingCrypto (secondSettings "QUFBQUFBQUFBQUFBQUFBQUFBQUFBQUFBQUFBQUFBQUE=" none) = .ok service ∧
      ∀ writer, getEncryptionService markingCrypto (firstSettings "QUFBQUFBQUFBQUFBQUFBQUFBQUFBQUFBQUFBQUFBQUE=" none) = .ok writer →
        ∀ (nonce : Bytes) (text : String), nonce.length = 12 →
          service.decrypt markingCrypto (writer.encrypt markingCrypto nonce text) = .ok text := by
  have hkey : normalizeKey markingCrypto "QUFBQUFBQUFBQUFBQUFBQUFBQUFBQUFBQUFBQUFBQUE=" none = .ok ⟨List.replicate 32 65, rfl⟩ :=
    normalizeKey_of_raw rfl none
  obtain ⟨hloads, hreads⟩ := rotations markingCrypto_ideal (rotations_settings (by decide) hkey)
  obtain ⟨service, hservice⟩ := hloads.mpr (fun entry hmem => by
    obtain rfl := List.mem_singleton.mp hmem
    exact ⟨_, ⟨List.replicate 32 65, rfl⟩, rfl, rfl⟩)
  exact ⟨service, hservice, fun writer hwriter nonce text hnonce =>
    ((hreads service hservice).1 _ List.mem_cons_self writer hwriter nonce text hnonce).1 (by decide)⟩

/-- A passphrase is a primary material with a salt, and no legacy material. -/
theorem passphrase_not_kept :
    Rotations markingCrypto ([firstSettings "correct-horse-battery-staple" (some "salt")] ++
      [secondSettings "correct-horse-battery-staple" (some "salt")]) ∧
    (∃ service, getEncryptionService markingCrypto (firstSettings "correct-horse-battery-staple" (some "salt")) = .ok service) ∧
    getEncryptionService markingCrypto (secondSettings "correct-horse-battery-staple" (some "salt")) =
      .error .passphraseWithoutSalt :=
  ⟨rotations_settings (by decide) rfl, ⟨_, rfl⟩, rfl⟩

end Sreda.Services
