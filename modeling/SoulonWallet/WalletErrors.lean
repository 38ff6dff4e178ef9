import SoulonWallet.Utf16Text

/-!
# Wallet errors

The wallet maps a rejected transaction and a thrown broadcast error to one of
seven semantic codes, by an ordered chain of keyword tests over the
lower-cased text.  The lower-casing of JavaScript strings is a parameter: no
result about the classifiers depends on its tables.
-/

namespace SoulonWallet.Wallet

inductive SemanticCode where
  | invalidArgument
  | insufficientFunds
  | outOfGas
  | invalidSequence
  | unauthorized
  | nodeUnavailable
  | txRejected
  deriving DecidableEq

namespace SemanticCode

def text : SemanticCode → Utf16
  | .invalidArgument => "INVALID_ARGUMENT"
  | .insufficientFunds => "INSUFFICIENT_FUNDS"
  | .outOfGas => "OUT_OF_GAS"
  | .invalidSequence => "INVALID_SEQUENCE"
  | .unauthorized => "UNAUTHORIZED"
  | .nodeUnavailable => "NODE_UNAVAILABLE"
  | .txRejected => "TX_REJECTED"

def defaultMessage : SemanticCode → Utf16
  | .invalidArgument => "invalid request"
  | .insufficientFunds => "insufficient funds"
  | .outOfGas => "out of gas"
  | .invalidSequence => "invalid account sequence"
  | .unauthorized => "unauthorized"
  | .nodeUnavailable => "node unavailable"
  | .txRejected => "transaction rejected"

end SemanticCode

/-- The code is an arbitrary string: callers may throw errors of their own. -/
structure SoulonWalletError where
  code : Utf16
  message : Utf16
  deriving DecidableEq

/-- `new SoulonWalletError(code, message || defaultMessage)`. -/
def SemanticCode.error (code : SemanticCode) (message : Option Utf16) :
    SoulonWalletError where
  code := code.text
  message :=
    match message with
    | none => code.defaultMessage
    | some text => if text.isEmpty then code.defaultMessage else text

/-- What an `await` can throw: a wallet error, another `Error` with its
message, or any other value with its string. -/
inductive Thrown where
  | walletError (error : SoulonWalletError)
  | error (message : Utf16)
  | value (text : Utf16)
  deriving DecidableEq

def includesOneOf (value : Utf16) (keywords : List Utf16) : Bool :=
  keywords.any fun keyword => value.includes keyword

def insufficientFundsKeywords : List Utf16 :=
  ["insufficient funds", "spendable balance", "不足", "余额不足"]

def outOfGasKeywords : List Utf16 :=
  ["out of gas", "gas wanted", "gas不足", "燃料不足"]

def invalidSequenceKeywords : List Utf16 :=
  ["invalid account sequence", "account sequence mismatch",
    "incorrect account sequence", "nonce", "sequence"]

def invalidArgumentKeywords : List Utf16 :=
  ["invalid", "malformed", "illegal", "参数非法", "invalid argument",
    "invalid request"]

def unauthorizedKeywords : List Utf16 :=
  ["unauthorized", "权限", "未授权"]

def nodeUnavailableKeywords : List Utf16 :=
  ["econnrefused", "fetch failed", "network error", "deadline exceeded",
    "timeout", "timed out", "unavailable", "connection refused",
    "socket hang up", "econnreset"]

def firstMatch (value : Utf16)
    (chain : List (List Utf16 × SemanticCode)) : Option SemanticCode :=
  (chain.find? fun entry => includesOneOf value entry.1).map (·.2)

def txChain : List (List Utf16 × SemanticCode) :=
  [(insufficientFundsKeywords, .insufficientFunds),
    (outOfGasKeywords, .outOfGas),
    (invalidSequenceKeywords, .invalidSequence),
    (invalidArgumentKeywords, .invalidArgument),
    (unauthorizedKeywords, .unauthorized)]

def broadcastChain : List (List Utf16 × SemanticCode) :=
  [(nodeUnavailableKeywords, .nodeUnavailable),
    (invalidSequenceKeywords, .invalidSequence),
    (outOfGasKeywords, .outOfGas),
    (insufficientFundsKeywords, .insufficientFunds),
    (invalidArgumentKeywords, .invalidArgument)]

section Classifiers

variable (toLowerCase : Utf16 → Utf16)

def normalizeMessage (message : Option Utf16) : Utf16 :=
  toLowerCase (message.getD "")

def txErrorCode (code : ℤ) (rawLog : Option Utf16) : SemanticCode :=
  match firstMatch (normalizeMessage toLowerCase rawLog) txChain with
  | some semantic => semantic
  | none =>
      if code = 4 then .insufficientFunds
      else if code = 11 then .outOfGas
      else if code = 32 then .invalidSequence
      else if code = 2 ∨ code = 3 then .invalidArgument
      else if code = 13 then .unauthorized
      else .txRejected

/-- `mapTxError` of a code other than zero. -/
def rejectedTxError (code : ℤ) (rawLog : Option Utf16) : SoulonWalletError :=
  (txErrorCode toLowerCase code rawLog).error rawLog

def mapTxError (code : ℤ) (rawLog : Option Utf16) :
    Option SoulonWalletError :=
  if code = 0 then none else some (rejectedTxError toLowerCase code rawLog)

def broadcastErrorOf (message : Utf16) : SoulonWalletError :=
  let normalized := normalizeMessage toLowerCase (some message)
  ((firstMatch normalized broadcastChain).getD .txRejected).error
    (some message)

def mapBroadcastError : Thrown → SoulonWalletError
  | .walletError error => error
  | .error message => broadcastErrorOf toLowerCase message
  | .value text => broadcastErrorOf toLowerCase text

end Classifiers

end SoulonWallet.Wallet
