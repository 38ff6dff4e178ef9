import SoulonWallet.Bech32RoundTrip
import SoulonWallet.TransactionBytes

/-!
# Signing a bank send

`CosmosSigner` writes a send as a JSON document, whose bytes are what is
signed.  They read back as the eleven values of the send, so two sends have
the same bytes only if they are the same.  The address of a key reads back as
the first twenty bytes of the hash of its public key; SHA-256 and the backend
are parameters.
-/

namespace SoulonWallet.BankSendSigner

open Dapp (JsonValue)
open Ibc (intText jsonEncode ofValue spelling)
open JsonText (Value)
open StakeGovernance (utf8Encode)
open TransactionFlows (isText_write)

abbrev Bytes := List UInt8

structure Sha256 where
  convert : Bytes → Bytes

/-- The part of the backend that addresses use. -/
structure SigningBackend where
  publicKeyFromPrivate : Bytes → Bytes

/-- A human-readable part that Bech32 reads back. -/
structure Hrp where
  text : Utf16
  nonempty : text.units ≠ []
  lower : AddressCodec.LowerAscii text

def soulonHrp : Hrp where
  text := "soulon"
  nonempty := by decide
  lower := by decide

/-- The arguments of `buildBankSendSignDoc`, with its defaults. -/
structure BankSend where
  fromAddress : Utf16
  toAddress : Utf16
  amount : Utf16
  denom : Utf16
  chainId : Utf16
  accountNumber : ℤ
  sequence : ℤ
  memo : Utf16 := ""
  gasLimit : ℤ := 200000
  feeAmount : Utf16 := "500"
  feeDenom : Utf16 := "usoul"

def coins (denom amount : Utf16) : JsonValue :=
  .list [.map [("denom", .string denom), ("amount", .string amount)]]

def buildBankSendSignDoc (send : BankSend) : JsonValue :=
  .map
    [("body", .map
        [("messages", .list
            [.map
              [("@type", .string "/cosmos.bank.v1beta1.MsgSend"),
                ("from_address", .string send.fromAddress),
                ("to_address", .string send.toAddress),
                ("amount", coins send.denom send.amount)]]),
          ("memo", .string send.memo)]),
      ("auth_info", .map
        [("signer_infos", .list []),
          ("fee", .map
            [("amount", coins send.feeDenom send.feeAmount),
              ("gas_limit", .string (intText send.gasLimit))])]),
      ("chain_id", .string send.chainId),
      ("account_number", .string (intText send.accountNumber)),
      ("sequence", .string (intText send.sequence))]

variable (platform : Ibc.Platform) (sha256 : Sha256) (backend : SigningBackend)

def serializeSignDoc (signDoc : JsonValue) : Except Unit Bytes :=
  (jsonEncode platform signDoc).map utf8Encode

def deriveAddress (privateKey : Bytes) (hrp : Hrp := soulonHrp) :
    Except AddressCodec.Failure Utf16 :=
  AddressCodec.encode hrp.text
    ((sha256.convert (backend.publicKeyFromPrivate privateKey)).take 20)

/-! ## Reading a document -/

def coinValues (denom amount : Utf16) : Value Utf16 ℤ :=
  .list [.map [("denom", .text denom), ("amount", .text amount)]]

/-- The document as a value. -/
def BankSend.value (send : BankSend) : Value Utf16 ℤ :=
  .map
    [("body", .map
        [("messages", .list
            [.map
              [("@type", .text "/cosmos.bank.v1beta1.MsgSend"),
                ("from_address", .text send.fromAddress),
                ("to_address", .text send.toAddress),
                ("amount", coinValues send.denom send.amount)]]),
          ("memo", .text send.memo)]),
      ("auth_info", .map
        [("signer_infos", .list []),
          ("fee", .map
            [("amount", coinValues send.feeDenom send.feeAmount),
              ("gas_limit", .text (intText send.gasLimit))])]),
      ("chain_id", .text send.chainId),
      ("account_number", .text (intText send.accountNumber)),
      ("sequence", .text (intText send.sequence))]

/-- What a reader of the bytes gets. -/
def readSignDoc (signDocBytes : Bytes) : Option (Value Utf16 ℤ) := do
  let chars ← Utf8.decodeStrict signDocBytes
  JsonText.read spelling (Utf16.ofChars chars).units

theorem buildBankSendSignDoc_eq (send : BankSend) :
    buildBankSendSignDoc send = ofValue send.value := by
  rfl

theorem intText_injective : Function.Injective intText := by
  intro left right hsame
  have hread := Ibc.readInteger_intText left JsonText.ends_nil
  rw [hsame, Ibc.readInteger_intText right JsonText.ends_nil] at hread
  exact (Prod.mk.inj (Option.some.inj hread)).1.symm

theorem value_injective : Function.Injective BankSend.value := by
  intro left right hsame
  cases left
  cases right
  simp only [BankSend.value, coinValues, Value.map.injEq, List.cons.injEq,
    Prod.mk.injEq, Value.text.injEq, Value.list.injEq, true_and, and_true,
    intText_injective.eq_iff] at hsame
  obtain ⟨⟨⟨rfl, rfl, rfl, rfl⟩, rfl⟩, ⟨⟨rfl, rfl⟩, rfl⟩, rfl, rfl, rfl⟩ :=
    hsame
  rfl

theorem readSignDoc_serialize (send : BankSend) :
    ∃ bytes, serializeSignDoc platform (buildBankSendSignDoc send) =
        .ok bytes ∧
      readSignDoc bytes = some send.value := by
  obtain ⟨chars, hchars⟩ := isText_write send.value
  have hformed : Utf16.toChars ⟨JsonText.write spelling send.value⟩ =
      chars := by
    rw [hchars]
    exact Utf16.toChars_ofChars chars
  refine ⟨utf8Encode ⟨JsonText.write spelling send.value⟩, ?_, ?_⟩
  · rw [serializeSignDoc, buildBankSendSignDoc_eq, Ibc.jsonEncode_ofValue]
    rfl
  · rw [readSignDoc, utf8Encode, hformed, Utf8.decodeStrict_encode,
      Option.bind_eq_bind, Option.bind_some, ← hchars, JsonText.read_write]

/-- The bytes that are signed tell the send, and the address tells the hash of
the public key. -/
theorem signed_bytes_tell_send
    (platform : Ibc.Platform) (sha256 : Sha256) (backend : SigningBackend) :
    (∀ send : BankSend, ∃ bytes,
      serializeSignDoc platform (buildBankSendSignDoc send) = .ok bytes ∧
      readSignDoc bytes = some send.value) ∧
    (∀ send other : BankSend,
      serializeSignDoc platform (buildBankSendSignDoc send) =
          serializeSignDoc platform (buildBankSendSignDoc other) ↔
        send = other) ∧
    ∀ (unicode : Utf16 → Utf16) (hrp : Hrp) (privateKey other : Bytes),
      (∃ address, deriveAddress sha256 backend privateKey hrp = .ok address ∧
        AddressCodec.decode unicode address = .ok (hrp.text,
          (sha256.convert
            (backend.publicKeyFromPrivate privateKey)).take 20)) ∧
      (deriveAddress sha256 backend privateKey hrp =
          deriveAddress sha256 backend other hrp ↔
        (sha256.convert (backend.publicKeyFromPrivate privateKey)).take 20 =
          (sha256.convert (backend.publicKeyFromPrivate other)).take 20) := by
  refine ⟨readSignDoc_serialize platform, ?_, ?_⟩
  · intro send other
    constructor
    · intro hsame
      obtain ⟨bytes, hbytes, hread⟩ := readSignDoc_serialize platform send
      obtain ⟨bytes', hbytes', hread'⟩ := readSignDoc_serialize platform other
      rw [hsame, hbytes', Except.ok.injEq] at hbytes
      rw [← hbytes, hread', Option.some.injEq] at hread
      exact value_injective hread.symm
    · intro hsame
      rw [hsame]
  · intro unicode hrp privateKey other
    have hread := fun data =>
      AddressCodec.decode_encode unicode hrp.nonempty hrp.lower data
    refine ⟨hread _, ?_⟩
    constructor
    · intro hsame
      obtain ⟨address, haddress, hdecode⟩ :=
        hread
          ((sha256.convert (backend.publicKeyFromPrivate privateKey)).take 20)
      obtain ⟨address', haddress', hdecode'⟩ :=
        hread ((sha256.convert (backend.publicKeyFromPrivate other)).take 20)
      have hjoined : Except.ok address = Except.ok address' :=
        haddress.symm.trans (hsame.trans haddress')
      cases hjoined
      rw [hdecode, Except.ok.injEq, Prod.mk.injEq] at hdecode'
      exact hdecode'.2
    · intro hsame
      rw [deriveAddress, deriveAddress, hsame]

end SoulonWallet.BankSendSigner
