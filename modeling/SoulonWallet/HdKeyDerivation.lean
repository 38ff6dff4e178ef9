import SoulonWallet.DigestChain
import SoulonWallet.Sha2
import SoulonWallet.StakeGovernance

/-!
# Keys of accounts

`HdKeyDerivation` takes the private key of an account from a seed by a master
key and five hardened children.  HMAC-SHA512 is a parameter.  The indices are
64-bit integers of which a child uses 31 bits, so accounts whose indices agree
there have one key; any other two accounts have different keys, unless two of
the calls of HMAC that were made for them collide.
-/

namespace SoulonWallet.HdKeyDerivation

open StakeGovernance (utf8Encode)

abbrev Bytes := List UInt8

abbrev Word := BitVec 64

structure HmacSha512 where
  convert : Bytes → Bytes → Bytes
  length_convert : ∀ key message, (convert key message).length = 64

/-- The two halves of a digest. -/
structure ExtendedKey where
  privateKey : Bytes
  chainCode : Bytes
  length_privateKey : privateKey.length = 32
  length_chainCode : chainCode.length = 32

/-- A call of HMAC. -/
structure Call where
  key : Bytes
  message : Bytes

variable (hmac : HmacSha512)

def HmacSha512.digest (call : Call) : ExtendedKey where
  privateKey := (hmac.convert call.key call.message).take 32
  chainCode := (hmac.convert call.key call.message).drop 32
  length_privateKey := by
    rw [List.length_take, hmac.length_convert]
    rfl
  length_chainCode := by
    rw [List.length_drop, hmac.length_convert]

def masterCall (seed : Bytes) : Call where
  key := utf8Encode "Bitcoin seed"
  message := seed

def masterKeyFromSeed (seed : Bytes) : ExtendedKey :=
  hmac.digest (masterCall seed)

def byteAt (index : Word) (shift : ℕ) : UInt8 :=
  UInt8.ofNat (index.sshiftRight shift &&& 0xFF).toNat

/-- The last four bytes of the message. -/
def indexBytes (index : Word) : Bytes :=
  [byteAt index 24, byteAt index 16, byteAt index 8, byteAt index 0]

def childCall (parent : ExtendedKey) (indexBytes : Bytes) : Call where
  key := parent.chainCode
  message := 0 :: parent.privateKey ++ indexBytes

def deriveHardenedChild (parent : ExtendedKey) (index : Word) : ExtendedKey :=
  hmac.digest (childCall parent (indexBytes index))

def hardened (index : Word) : Word :=
  index ||| 0x80000000

def derivePrivateKey (seed : Bytes) (coinType index : Word) : Bytes :=
  let master := masterKeyFromSeed hmac seed
  let purpose := deriveHardenedChild hmac master (hardened 44)
  let coin := deriveHardenedChild hmac purpose (hardened coinType)
  let account := deriveHardenedChild hmac coin (hardened 0)
  let change := deriveHardenedChild hmac account (hardened 0)
  (deriveHardenedChild hmac change (hardened index)).privateKey

/-! ## The bits of an index -/

theorem toNat_byteAt {shift : ℕ} (hshift : shift ≤ 56) (index : Word) :
    (byteAt index shift).toNat = index.toNat / 2 ^ shift % 256 := by
  have hlogical : index.sshiftRight shift &&& 0xFF =
      index >>> shift &&& 0xFF := by
    ext bit hbit
    simp only [BitVec.getElem_and, BitVec.getElem_sshiftRight,
      BitVec.getElem_ushiftRight]
    by_cases hlow : bit < 8
    · rw [dif_pos (by omega)]
      rw [BitVec.getLsbD_eq_getElem]
    · have hmask : (0xFF#64)[bit] = false := by
        rw [BitVec.getElem_eq_testBit_toNat]
        exact Nat.testBit_lt_two_pow
          (lt_of_lt_of_le (by decide : 0xFF < 2 ^ 8)
            (Nat.pow_le_pow_right (by decide) (by omega)))
      simp [hmask]
  have hbyte : (index.sshiftRight shift &&& 0xFF).toNat =
      index.toNat / 2 ^ shift % 256 := by
    rw [hlogical, BitVec.toNat_and, BitVec.toNat_ushiftRight,
      Nat.shiftRight_eq_div_pow]
    exact Nat.and_two_pow_sub_one_eq_mod _ 8
  rw [byteAt, hbyte]
  exact UInt8.toNat_ofNat_of_lt (Nat.mod_lt _ (by decide))

theorem toNat_hardened (index : Word) :
    (hardened index).toNat % 2 ^ 32 = index.toNat % 2 ^ 31 + 2 ^ 31 := by
  have hor : (hardened index).toNat = index.toNat ||| 2 ^ 31 := rfl
  have hjoin : 2 ^ 31 + index.toNat % 2 ^ 31 =
      2 ^ 31 ||| index.toNat % 2 ^ 31 := by
    have hlt : index.toNat % 2 ^ 31 < 2 ^ 31 := Nat.mod_lt _ (by decide)
    simpa using Nat.two_pow_add_eq_or_of_lt hlt 1
  rw [hor, Nat.or_mod_two_pow]
  show index.toNat % 2 ^ 32 ||| 2 ^ 31 = _
  rw [Nat.or_comm, Nat.add_comm, hjoin]
  rcases (show index.toNat % 2 ^ 32 = index.toNat % 2 ^ 31 ∨
      index.toNat % 2 ^ 32 = 2 ^ 31 + index.toNat % 2 ^ 31 by omega) with
    hbit | hbit
  · rw [hbit]
  · rw [hbit, hjoin, ← Nat.or_assoc, Nat.or_self]

theorem indexBytes_hardened_iff {index other : Word} :
    indexBytes (hardened index) = indexBytes (hardened other) ↔
      index.toNat % 2 ^ 31 = other.toNat % 2 ^ 31 := by
  have hindex := toNat_hardened index
  have hother := toNat_hardened other
  simp only [indexBytes, List.cons.injEq, and_true, ← UInt8.toNat_inj,
    toNat_byteAt (show 24 ≤ 56 by decide), toNat_byteAt (show 16 ≤ 56 by decide),
    toNat_byteAt (show 8 ≤ 56 by decide), toNat_byteAt (show 0 ≤ 56 by decide)]
  omega

/-! ## The calls of a derivation -/

theorem childCall_injective
    {parent parent' : ExtendedKey} {bytes bytes' : Bytes}
    (hsame : childCall parent bytes = childCall parent' bytes') :
    parent = parent' ∧ bytes = bytes' := by
  have hkey : parent.chainCode = parent'.chainCode :=
    congrArg Call.key hsame
  have hmessage : 0 :: parent.privateKey ++ bytes =
      0 :: parent'.privateKey ++ bytes' :=
    congrArg Call.message hsame
  have hlength : (0 :: parent.privateKey).length =
      (0 :: parent'.privateKey).length := by
    rw [List.length_cons, List.length_cons, parent.length_privateKey,
      parent'.length_privateKey]
  obtain ⟨hprivate, hbytes⟩ := List.append_inj hmessage hlength
  refine ⟨?_, hbytes⟩
  cases parent
  cases parent'
  cases hkey
  cases List.cons.inj hprivate |>.2
  rfl

/-- Children by the last bytes of their messages. -/
def children : DigestChain ExtendedKey Bytes Call where
  call := childCall
  digest := hmac.digest
  call_injective := childCall_injective

/-- A seed with the coin type and the index of an account. -/
structure Account where
  seed : Bytes
  coinType : Word
  index : Word

namespace Account

def privateKey (account : Account) : Bytes :=
  derivePrivateKey hmac account.seed account.coinType account.index

/-- The last bytes of the five messages. -/
def path (account : Account) : List Bytes :=
  [44, account.coinType, 0, 0, account.index].map fun index =>
    indexBytes (hardened index)

/-- The calls of HMAC that are made for an account, the one for the master key
first. -/
def calls (account : Account) : List Call :=
  masterCall account.seed ::
    (children hmac).calls (masterKeyFromSeed hmac account.seed) account.path

/-- The same seed, and indices that agree in the bits that are used. -/
def Agrees (account other : Account) : Prop :=
  account.seed = other.seed ∧
    account.coinType.toNat % 2 ^ 31 = other.coinType.toNat % 2 ^ 31 ∧
    account.index.toNat % 2 ^ 31 = other.index.toNat % 2 ^ 31

theorem path_eq_iff {account other : Account} :
    account.path = other.path ↔
      account.coinType.toNat % 2 ^ 31 = other.coinType.toNat % 2 ^ 31 ∧
        account.index.toNat % 2 ^ 31 = other.index.toNat % 2 ^ 31 := by
  simp only [path, List.map_cons, List.map_nil, List.cons.injEq, true_and,
    and_true, indexBytes_hardened_iff]

theorem privateKey_eq_run (account : Account) :
    account.privateKey hmac =
      ((children hmac).run (masterKeyFromSeed hmac account.seed)
        account.path).privateKey := by
  rfl

end Account

variable {hmac}

/-- Accounts that agree have one key.  Any two accounts with one key agree,
unless two different calls at the same place of their derivations have digests
with the same left half. -/
theorem accounts_share_key (hmac : HmacSha512) (account other : Account) :
    (account.Agrees other →
      account.privateKey hmac = other.privateKey hmac) ∧
    (account.privateKey hmac = other.privateKey hmac →
      account.Agrees other ∨
        ∃ pair ∈ (account.calls hmac).zip (other.calls hmac),
          pair.1 ≠ pair.2 ∧
            (hmac.convert pair.1.key pair.1.message).take 32 =
              (hmac.convert pair.2.key pair.2.message).take 32) := by
  constructor
  · rintro ⟨hseed, hindices⟩
    rw [Account.privateKey_eq_run, Account.privateKey_eq_run, hseed,
      Account.path_eq_iff.mpr hindices]
  · intro hsame
    rw [Account.privateKey_eq_run, Account.privateKey_eq_run] at hsame
    have hne : account.path ≠ [] := by simp [Account.path]
    have hlength : account.path.length = other.path.length := by
      simp [Account.path]
    have hcases :
        (masterKeyFromSeed hmac account.seed =
            masterKeyFromSeed hmac other.seed ∧
          account.path = other.path) ∨
        (children hmac).Collide ExtendedKey.privateKey
          ((children hmac).calls (masterKeyFromSeed hmac account.seed)
            account.path)
          ((children hmac).calls (masterKeyFromSeed hmac other.seed)
            other.path) :=
      DigestChain.same_or_collide hne hlength hsame
    rcases hcases with ⟨hmaster, hpath⟩ | ⟨pair, hpair, hcollide⟩
    · by_cases hseed : account.seed = other.seed
      · exact Or.inl ⟨hseed, Account.path_eq_iff.mp hpath⟩
      · -- Two seeds with one master key.
        refine Or.inr ⟨(masterCall account.seed, masterCall other.seed),
          List.mem_cons_self, ?_, congrArg ExtendedKey.privateKey hmaster⟩
        intro hcall
        exact hseed (congrArg Call.message hcall)
    · exact Or.inr ⟨pair, List.mem_cons_of_mem _ hpair, hcollide⟩

/-- HMAC-SHA512 itself. -/
def hmacSha512 : HmacSha512 where
  convert := Sha2.hmac Sha2.sha512
  length_convert := Sha2.length_hmac Sha2.sha512

/-- An account of the seed of the bytes from 0 to 15. -/
def sampleAccount (index : Word) : Account where
  seed := (List.range 16).map UInt8.ofNat
  coinType := 118
  index := index

/-- The index that differs in the unused bit has the key of the first account,
the next index only by a collision. -/
theorem accounts_share_key_sample :
    (masterKeyFromSeed hmacSha512 (sampleAccount 0).seed).privateKey =
      Sha2.bigEndian 32
        0xe8f32e723decf4051aefac8e2c93c9c5b214313817cdb01a1494b917c8436b35 ∧
    (sampleAccount 0).privateKey hmacSha512 =
      (sampleAccount 0x80000000).privateKey hmacSha512 ∧
    ((sampleAccount 0).privateKey hmacSha512 =
        (sampleAccount 1).privateKey hmacSha512 →
      ∃ pair ∈ ((sampleAccount 0).calls hmacSha512).zip
          ((sampleAccount 1).calls hmacSha512),
        pair.1 ≠ pair.2 ∧
          (Sha2.hmac Sha2.sha512 pair.1.key pair.1.message).take 32 =
            (Sha2.hmac Sha2.sha512 pair.2.key pair.2.message).take 32) := by
  have hdiffers : ¬ (sampleAccount 0).Agrees (sampleAccount 1) := by
    rintro ⟨-, -, hindex⟩
    exact absurd hindex (by decide)
  refine ⟨by decide +kernel, ?_, ?_⟩
  · exact (accounts_share_key hmacSha512 _ _).1 ⟨rfl, by decide, by decide⟩
  · intro hsame
    exact ((accounts_share_key hmacSha512 _ _).2 hsame).resolve_left hdiffers

end SoulonWallet.HdKeyDerivation
