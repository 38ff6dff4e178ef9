import SoulonWallet.Sha2
import SoulonWallet.TransactionBytes

/-!
# Keystore entries

`KeystoreManager` derives a key from a password by PBKDF2 with HMAC-SHA256,
which is a parameter, and keeps what is needed to derive it again in a map
that can be written as JSON.  The loop for the one block that it needs agrees
with PBKDF2, and an entry is restored from the map and from its text.
-/

namespace SoulonWallet.Keystore

open Dapp (JsonValue JsonMap)
open Ibc (jsonEncode ofValue spelling)
open JsonText (Value)
open StakeGovernance (base64Encode utf8Encode)
open TransactionFlows (base64Decode base64Decode_base64Encode)

abbrev Bytes := List UInt8

structure HmacSha256 where
  convert : Bytes → Bytes → Bytes
  length_convert : ∀ key message, (convert key message).length = 32

def pbkdf2Iterations : ℤ := 100000

/-! ## The key -/

section Key

variable (hmac : HmacSha256) (password : Utf16) (salt : Bytes)

/-- The loop has the block and the last digest. -/
def deriveStep (state : Bytes × Bytes) : Bytes × Bytes :=
  let next := hmac.convert (utf8Encode password) state.2
  (List.zipWith (· ^^^ ·) state.1 next, next)

def deriveKey (iterations : ℤ := pbkdf2Iterations) : Bytes :=
  let input := salt ++ [0, 0, 0, 1]
  let first := hmac.convert (utf8Encode password) input
  ((deriveStep hmac password)^[(iterations - 1).toNat] (first, first)).1

/-- The digest of a round. -/
abbrev digest (round : ℕ) : Bytes :=
  Pbkdf2.chained hmac.convert (utf8Encode password) salt 1 round

variable {hmac password salt}

theorem length_digest (round : ℕ) :
    (digest hmac password salt round).length = 32 := by
  cases round with
  | zero => exact hmac.length_convert _ _
  | succ round => exact hmac.length_convert _ _

/-- After some rounds of the loop. -/
theorem iterate_deriveStep
    (hmac : HmacSha256) (password : Utf16) (salt : Bytes) (rounds : ℕ) :
    ∃ block,
      (deriveStep hmac password)^[rounds]
          (digest hmac password salt 0, digest hmac password salt 0) =
        (block, digest hmac password salt rounds) ∧
      block.length = 32 ∧
      ∀ place < 32, block.getD place 0 =
        Pbkdf2.blockByte hmac.convert (utf8Encode password) salt (rounds + 1)
          1 place := by
  induction rounds with
  | zero =>
      refine ⟨_, rfl, length_digest 0, ?_⟩
      intro place _
      rw [Pbkdf2.blockByte_succ]
      show _ = 0 ^^^ _
      rw [UInt8.zero_xor]
  | succ rounds ih =>
      obtain ⟨block, hblock, hlength, hbytes⟩ := ih
      refine ⟨List.zipWith (· ^^^ ·) block
        (digest hmac password salt (rounds + 1)), ?_, ?_, ?_⟩
      · rw [Function.iterate_succ_apply', hblock]
        rfl
      · rw [List.length_zipWith, hlength, length_digest, Nat.min_self]
      · intro place hplace
        have hnext : (digest hmac password salt (rounds + 1)).length = 32 :=
          length_digest (rounds + 1)
        rw [Pbkdf2.blockByte_succ, ← hbytes place hplace]
        simp only [List.getD_eq_getElem?_getD, List.getElem?_zipWith]
        rw [List.getElem?_eq_getElem (by omega),
          List.getElem?_eq_getElem (by omega)]
        rfl

theorem deriveKey_eq_derive (iterations : ℤ) :
    deriveKey hmac password salt iterations =
      Pbkdf2.derive hmac.convert 32 (utf8Encode password) salt
        (max 1 iterations).toNat 32 := by
  obtain ⟨block, hblock, hlength, hbytes⟩ :=
    iterate_deriveStep hmac password salt (iterations - 1).toNat
  have hkey : deriveKey hmac password salt iterations = block :=
    congrArg Prod.fst hblock
  have hrounds : (max 1 iterations).toNat = (iterations - 1).toNat + 1 := by
    omega
  rw [hkey, hrounds, Pbkdf2.derive_size (by decide)]
  apply List.ext_getElem
  · rw [hlength, Pbkdf2.length_block]
  · intro place hplace _
    rw [hlength] at hplace
    have hbyte := hbytes place hplace
    rw [List.getD_eq_getElem?_getD,
      List.getElem?_eq_getElem (by rwa [hlength])] at hbyte
    simp only [Pbkdf2.block, List.getElem_map, List.getElem_range]
    exact hbyte

end Key

/-! ## The entry -/

structure KeystoreEntry where
  address : Utf16
  encryptedKey : Bytes
  salt : Bytes
  nonce : Bytes
  derivationPath : Utf16
  iterations : ℤ := pbkdf2Iterations
  deriving DecidableEq

def serializeKeystoreEntry (entry : KeystoreEntry) : JsonMap :=
  [("version", .int 1),
    ("address", .string entry.address),
    ("crypto", .map
      [("cipher", .string "aes-256-gcm"),
        ("ciphertext", .string (base64Encode entry.encryptedKey)),
        ("nonce", .string (base64Encode entry.nonce)),
        ("kdf", .string "pbkdf2-hmac-sha256"),
        ("kdfparams", .map
          [("iterations", .int entry.iterations),
            ("salt", .string (base64Encode entry.salt)),
            ("dklen", .int 32)])]),
    ("derivationPath", .string entry.derivationPath)]

/-- What deserializing throws. -/
inductive Failure where
  | typeError
  | formatException

def asMap : JsonValue → Except Failure JsonMap
  | .map entries => .ok entries
  | _ => .error .typeError

def asString : JsonValue → Except Failure Utf16
  | .string text => .ok text
  | _ => .error .typeError

def asInt : JsonValue → Except Failure ℤ
  | .int value => .ok value
  | _ => .error .typeError

def decodeBytes (text : Utf16) : Except Failure Bytes :=
  match base64Decode text with
  | some bytes => .ok bytes
  | none => .error .formatException

def deserializeKeystoreEntry (json : JsonMap) : Except Failure KeystoreEntry :=
  do
  let crypto ← asMap (json.get "crypto")
  let kdfparams ← asMap (crypto.get "kdfparams")
  let address ← asString (json.get "address")
  let ciphertext ← asString (crypto.get "ciphertext")
  let encryptedKey ← decodeBytes ciphertext
  let saltText ← asString (kdfparams.get "salt")
  let salt ← decodeBytes saltText
  let nonceText ← asString (crypto.get "nonce")
  let nonce ← decodeBytes nonceText
  let derivationPath ← asString (json.get "derivationPath")
  let iterations ← asInt (kdfparams.get "iterations")
  .ok ⟨address, encryptedKey, salt, nonce, derivationPath, iterations⟩

theorem decodeBytes_base64Encode (bytes : Bytes) :
    decodeBytes (base64Encode bytes) = .ok bytes := by
  rw [decodeBytes, base64Decode_base64Encode]

theorem deserialize_serialize (entry : KeystoreEntry) :
    deserializeKeystoreEntry (serializeKeystoreEntry entry) = .ok entry := by
  have hread : deserializeKeystoreEntry (serializeKeystoreEntry entry) = (do
      let encryptedKey ← decodeBytes (base64Encode entry.encryptedKey)
      let salt ← decodeBytes (base64Encode entry.salt)
      let nonce ← decodeBytes (base64Encode entry.nonce)
      .ok ⟨entry.address, encryptedKey, salt, nonce, entry.derivationPath,
        entry.iterations⟩) := by
    rfl
  rw [hread, decodeBytes_base64Encode, decodeBytes_base64Encode,
    decodeBytes_base64Encode]
  rfl

/-! ## The text of an entry -/

/-- The map as a value. -/
def KeystoreEntry.value (entry : KeystoreEntry) : Value Utf16 ℤ :=
  .map
    [("version", .number 1),
      ("address", .text entry.address),
      ("crypto", .map
        [("cipher", .text "aes-256-gcm"),
          ("ciphertext", .text (base64Encode entry.encryptedKey)),
          ("nonce", .text (base64Encode entry.nonce)),
          ("kdf", .text "pbkdf2-hmac-sha256"),
          ("kdfparams", .map
            [("iterations", .number entry.iterations),
              ("salt", .text (base64Encode entry.salt)),
              ("dklen", .number 32)])]),
      ("derivationPath", .text entry.derivationPath)]

theorem serializeKeystoreEntry_eq (entry : KeystoreEntry) :
    JsonValue.map (serializeKeystoreEntry entry) = ofValue entry.value := by
  rfl

/-- The entry that is kept in a text. -/
def readEntry (text : Utf16) : Except Failure KeystoreEntry := do
  match JsonText.read spelling text.units with
  | none => .error .formatException
  | some value =>
      let json ← asMap (ofValue value)
      deserializeKeystoreEntry json

/-- An entry is restored from its map and from its text, with all that the key
was derived from; and the key is that of PBKDF2 for any password, salt and
number of iterations, where less than one counts as one. -/
theorem entry_restores_key (platform : Ibc.Platform) (hmac : HmacSha256) :
    (∀ entry : KeystoreEntry,
      deserializeKeystoreEntry (serializeKeystoreEntry entry) = .ok entry ∧
      ∃ text, jsonEncode platform (.map (serializeKeystoreEntry entry)) =
          .ok text ∧
        readEntry text = .ok entry) ∧
    ∀ (password : Utf16) (salt : Bytes) (iterations : ℤ),
      deriveKey hmac password salt iterations =
        Pbkdf2.derive hmac.convert 32 (utf8Encode password) salt
          (max 1 iterations).toNat 32 := by
  refine ⟨?_, fun _ _ iterations => deriveKey_eq_derive iterations⟩
  intro entry
  refine ⟨deserialize_serialize entry,
    ⟨JsonText.write spelling entry.value⟩, ?_, ?_⟩
  · rw [serializeKeystoreEntry_eq, Ibc.jsonEncode_ofValue]
  · have hmap : asMap (ofValue entry.value) =
        .ok (serializeKeystoreEntry entry) := by
      rw [← serializeKeystoreEntry_eq]
      rfl
    rw [readEntry, JsonText.read_write]
    dsimp only
    rw [hmap]
    exact deserialize_serialize entry

/-- HMAC-SHA256 itself. -/
def hmacSha256 : HmacSha256 where
  convert := Sha2.hmac Sha2.sha256
  length_convert := Sha2.length_hmac Sha2.sha256

def sampleEntry : KeystoreEntry where
  address := "soulon1"
  encryptedKey := [1, 2, 3]
  salt := utf8Encode "salt"
  nonce := []
  derivationPath := "m/0"
  iterations := 2

theorem entry_restores_key_sample :
    (∃ text, jsonEncode Ibc.decimalPlatform
        (.map (serializeKeystoreEntry sampleEntry)) = .ok text ∧
      readEntry text = .ok sampleEntry) ∧
    deriveKey hmacSha256 "password" sampleEntry.salt sampleEntry.iterations =
      Sha2.bigEndian 32
        0xae4d0c95af6b46d32d0adff928f06dd02a303f8ef3c251dfd6e2d85a95474c43 := by
  obtain ⟨hentries, hkeys⟩ := entry_restores_key Ibc.decimalPlatform hmacSha256
  refine ⟨(hentries sampleEntry).2, ?_⟩
  rw [hkeys]
  decide +kernel

end SoulonWallet.Keystore
