import SoulonWallet.BroadcastRetry

/-!
# The two error classifiers

`mapTxError` and `mapBroadcastError` read the text of a failure with the same
keywords, but not in the same order: the first asks for insufficient funds,
gas and sequence, the second for sequence, gas and insufficient funds.  A
text with keywords of two of these families is classified differently when it
is returned and when it is thrown.  Every text with the gas keywords `gas不足`
and `燃料不足` is one of them, so `mapTxError` never answers to these two.
-/

namespace SoulonWallet.Wallet

/-- The families of keywords that the two classifiers order differently. -/
def reorderedKeywords : List (List Utf16) :=
  [insufficientFundsKeywords, outOfGasKeywords, invalidSequenceKeywords]

/-- The text has keywords of at most one of the reordered families. -/
def NamesOneFailure (normalized : Utf16) : Prop :=
  reorderedKeywords.Pairwise fun left right =>
    ¬ (includesOneOf normalized left ∧ includesOneOf normalized right)

instance (normalized : Utf16) : Decidable (NamesOneFailure normalized) :=
  inferInstanceAs (Decidable (List.Pairwise _ _))

/-- The codes to which `mapTxError` gives a meaning of their own. -/
def knownTxCodes : List ℤ := [0, 2, 3, 4, 11, 13, 32]

namespace SemanticCode

theorem text_injective : Function.Injective text := by
  intro left right htext
  cases left <;> cases right <;> first | rfl | exact absurd htext (by decide)

end SemanticCode

theorem includes_trans
    {text outer inner : Utf16} (houter : text.includes outer)
    (hinner : outer.includes inner) : text.includes inner := by
  unfold Utf16.includes at houter hinner ⊢
  rw [decide_eq_true_eq] at houter hinner ⊢
  exact hinner.trans houter

section Classifiers

variable {toLowerCase : Utf16 → Utf16}

theorem txErrorCode_of_unknown
    {code : ℤ} (hcode : code ∉ knownTxCodes) (rawLog : Option Utf16) :
    txErrorCode toLowerCase code rawLog =
      (firstMatch (normalizeMessage toLowerCase rawLog) txChain).getD
        .txRejected := by
  simp only [knownTxCodes, List.mem_cons, List.not_mem_nil, or_false,
    not_or] at hcode
  obtain ⟨-, htwo, hthree, hfour, heleven, hthirteen, hthirtyTwo⟩ := hcode
  unfold txErrorCode
  cases firstMatch (normalizeMessage toLowerCase rawLog) txChain with
  | none =>
      simp [htwo, hthree, hfour, heleven, hthirteen, hthirtyTwo]
  | some semantic => rfl

/-- Two keywords of the gas family never decide: the chain has found
insufficient funds before it asks for them. -/
theorem txErrorCode_of_gas_shortage
    (code : ℤ) {rawLog : Option Utf16}
    (hshortage : (normalizeMessage toLowerCase rawLog).includes "gas不足" ∨
      (normalizeMessage toLowerCase rawLog).includes "燃料不足") :
    txErrorCode toLowerCase code rawLog = .insufficientFunds := by
  have hfunds : (normalizeMessage toLowerCase rawLog).includes "不足" := by
    rcases hshortage with hgas | hfuel
    · exact includes_trans hgas (by decide)
    · exact includes_trans hfuel (by decide)
  have hfamily : includesOneOf (normalizeMessage toLowerCase rawLog)
      insufficientFundsKeywords := by
    simp [includesOneOf, insufficientFundsKeywords, hfunds]
  simp [txErrorCode, firstMatch, txChain, hfamily]

/-- On which texts the two chains of keyword tests give the same answer. -/
theorem firstMatch_chains_eq_iff (normalized : Utf16) :
    (firstMatch normalized txChain).getD .txRejected =
        (firstMatch normalized broadcastChain).getD .txRejected ↔
      ¬ includesOneOf normalized nodeUnavailableKeywords ∧
      NamesOneFailure normalized ∧
      (includesOneOf normalized unauthorizedKeywords →
        includesOneOf normalized invalidArgumentKeywords ∨
          ∃ keywords ∈ reorderedKeywords,
            includesOneOf normalized keywords) := by
  simp only [firstMatch, txChain, broadcastChain, NamesOneFailure,
    reorderedKeywords, List.find?_cons, List.find?_nil, List.pairwise_cons,
    List.mem_cons, List.not_mem_nil, or_false, forall_eq_or_imp, forall_eq,
    exists_eq_or_imp, exists_eq_left, List.Pairwise.nil, and_true,
    false_implies, implies_true]
  generalize includesOneOf normalized nodeUnavailableKeywords = unavailable
  generalize includesOneOf normalized insufficientFundsKeywords = funds
  generalize includesOneOf normalized outOfGasKeywords = gas
  generalize includesOneOf normalized invalidSequenceKeywords = sequence
  generalize includesOneOf normalized invalidArgumentKeywords = argument
  generalize includesOneOf normalized unauthorizedKeywords = unauthorized
  cases unavailable <;> cases funds <;> cases gas <;> cases sequence <;>
    cases argument <;> cases unauthorized <;> decide

/-- Outside the known codes and without the keywords that only one of the two
classifiers has, they agree exactly on the texts that name one failure. -/
theorem mapTxError_agrees_iff
    {code : ℤ} {message : Utf16} (hcode : code ∉ knownTxCodes)
    (hconnected : ¬ includesOneOf (toLowerCase message)
      nodeUnavailableKeywords)
    (hauthorized : ¬ includesOneOf (toLowerCase message)
      unauthorizedKeywords) :
    (mapTxError toLowerCase code (some message)).map (·.code) =
        some (mapBroadcastError toLowerCase (.error message)).code ↔
      NamesOneFailure (toLowerCase message) := by
  have hzero : code ≠ 0 := by
    rintro rfl
    exact hcode (by decide)
  have htx : (mapTxError toLowerCase code (some message)).map (·.code) =
      some ((firstMatch (toLowerCase message) txChain).getD
        .txRejected).text := by
    rw [mapTxError, if_neg hzero, rejectedTxError,
      txErrorCode_of_unknown hcode]
    rfl
  have hbroadcast :
      (mapBroadcastError toLowerCase (.error message)).code =
        ((firstMatch (toLowerCase message) broadcastChain).getD
          .txRejected).text := by
    rfl
  rw [htx, hbroadcast, Option.some.injEq,
    SemanticCode.text_injective.eq_iff, firstMatch_chains_eq_iff]
  simp [hconnected, hauthorized]

theorem mapTxError_agrees_outOfGas :
    (mapTxError asciiToLowerCase 5 (some "Out of gas in location")).map
        (·.code) =
        some (mapBroadcastError asciiToLowerCase
          (.error "Out of gas in location")).code ↔
      NamesOneFailure (asciiToLowerCase "Out of gas in location") :=
  mapTxError_agrees_iff (by decide) (by decide) (by decide)

/-- The gas keyword `gas不足` has the keyword `不足` of insufficient funds in
it, which `mapTxError` asks for first. -/
theorem mapTxError_disagrees_gas :
    5 ∉ knownTxCodes ∧
    includesOneOf (asciiToLowerCase "gas不足") nodeUnavailableKeywords =
      false ∧
    includesOneOf (asciiToLowerCase "gas不足") unauthorizedKeywords = false ∧
    (mapTxError asciiToLowerCase 5 (some "gas不足")).map (·.code) =
      some "INSUFFICIENT_FUNDS" ∧
    (mapBroadcastError asciiToLowerCase (.error "gas不足")).code =
      "OUT_OF_GAS" := by
  decide

end Classifiers

end SoulonWallet.Wallet
