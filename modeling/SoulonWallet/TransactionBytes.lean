import SoulonWallet.JsonSpelling
import SoulonWallet.TransactionFlows

/-!
# The bytes of a transaction

Five functions of the Flutter wallet broadcast a transaction: transfers, IBC
transfers, staking, votes and multisig tasks.  Each writes it as JSON, in
UTF-8, in Base64.  `readTx` goes the way back, and what it reads is what the
function wrote: two broadcasts of a wallet have the same bytes exactly when they
tell the chain the same.  What a function was asked for is told with amounts of
six decimals, a trimmed reason and a normalized receiver.
-/

namespace SoulonWallet.TransactionFlows

open Dapp (JsonValue JsonMap Answer PostFailure asMap authSignatureChallenge
  authSignatureConfirm)
open Ibc (isLead isTrail encodeUnit encodeUnits escapedUnit hexDigit intText
  jsonEncode ofValue spelling)
open JsonText (Units Value)
open Multisig (MultisigTask)
open StakeGovernance (Answers ApiCall GovernanceVoteOption Platform
  StakeActionType StakeRequest VoteRequest actionLabel base64Digit
  base64Encode base64Units chainBroadcastTx runStakeFlow signedBroadcast
  submitVote utf8Encode voteOption)

/-! ## UTF-8 -/

/-- The units of some characters: no surrogate lacks its partner. -/
def IsText (units : Units) : Prop :=
  ∃ chars, units = (Utf16.ofChars chars).units

theorem isText_nil : IsText [] :=
  ⟨[], rfl⟩

theorem IsText.append
    {front back : Units} (hfront : IsText front) (hback : IsText back) :
    IsText (front ++ back) := by
  obtain ⟨chars, rfl⟩ := hfront
  obtain ⟨others, rfl⟩ := hback
  exact ⟨chars ++ others, List.flatMap_append.symm⟩

theorem isText_singleton
    {unit : UInt16} (hunit : unit.toNat < 0xD800 ∨ 0xDFFF < unit.toNat) :
    IsText [unit] := by
  have hlimit := unit.toNat_lt
  have hchar : (Char.ofNat unit.toNat).toNat = unit.toNat :=
    Utf8.toNat_charOfNat (hunit.imp_right fun hhigh => ⟨hhigh, by omega⟩)
  refine ⟨[Char.ofNat unit.toNat], ?_⟩
  show [unit] = [Char.ofNat unit.toNat].flatMap Utf16.ofChar
  rw [List.flatMap_cons, Utf16.ofChar, if_pos (by omega), hchar]
  exact congrArg (· :: []) UInt16.ofNat_toNat.symm

theorem isText_of_forall
    {units : Units} (hunits : ∀ unit ∈ units, unit.toNat < 0xD800) :
    IsText units := by
  induction units with
  | nil => exact isText_nil
  | cons unit rest ih =>
      obtain ⟨hunit, hrest⟩ := List.forall_mem_cons.mp hunits
      exact (isText_singleton (Or.inl hunit)).append (ih hrest)

theorem isText_pair
    {lead trail : UInt16} (hlead : isLead lead = true)
    (htrail : isTrail trail = true) : IsText [lead, trail] := by
  rw [Ibc.isLead_iff] at hlead
  rw [Ibc.isTrail_iff] at htrail
  obtain ⟨c, hc⟩ : ∃ c : Char, c.toNat =
      0x10000 + (lead.toNat - 0xD800) * 0x400 + (trail.toNat - 0xDC00) :=
    ⟨Char.ofNat _, Utf8.toNat_charOfNat (Or.inr ⟨by omega, by omega⟩)⟩
  have hhigh : 0xD800 + (c.toNat - 0x10000) / 0x400 = lead.toNat := by omega
  have hlow : 0xDC00 + (c.toNat - 0x10000) % 0x400 = trail.toNat := by omega
  refine ⟨[c], ?_⟩
  show [lead, trail] = [c].flatMap Utf16.ofChar
  rw [List.flatMap_cons, Utf16.ofChar, if_neg (by omega), hhigh, hlow]
  exact congrArg₂ (fun high low => [high, low]) UInt16.ofNat_toNat.symm
    UInt16.ofNat_toNat.symm

theorem isText_escapedUnit (unit : UInt16) : IsText (escapedUnit unit) := by
  have hdigit : ∀ digit, (hexDigit digit).toNat < 0xD800 := by
    intro digit
    have hall : ∀ value < 16, (hexDigit value).toNat < 0xD800 := by decide
    have hsame : hexDigit digit = hexDigit (digit % 16) := by
      rw [hexDigit, hexDigit, Nat.mod_mod]
    rw [hsame]
    exact hall _ (Nat.mod_lt _ (by decide))
  apply isText_of_forall
  simp only [escapedUnit, List.forall_mem_cons, hdigit, true_and]
  exact ⟨by decide, by decide, fun _ hnil => absurd hnil List.not_mem_nil⟩

/-- A unit that is no half of a pair. -/
theorem isText_encodeUnit
    {before after : Option UInt16} {unit : UInt16}
    (hlead : isLead unit = true → ¬ after.any isTrail = true)
    (htrail : isTrail unit = true → ¬ before.any isLead = true) :
    IsText (encodeUnit before unit after) := by
  have hplain : ∀ mark : UInt16, mark.toNat < 0xD800 → IsText [0x5C, mark] :=
    fun mark hmark => isText_of_forall (by simp [hmark])
  unfold encodeUnit
  split_ifs with h8 h9 hA hC hD hcontrol hquote halone halone'
  · exact hplain _ (by decide)
  · exact hplain _ (by decide)
  · exact hplain _ (by decide)
  · exact hplain _ (by decide)
  · exact hplain _ (by decide)
  · exact isText_escapedUnit unit
  · rcases hquote with rfl | rfl
    · exact hplain _ (by decide)
    · exact hplain _ (by decide)
  · exact isText_escapedUnit unit
  · exact isText_escapedUnit unit
  · have hnotLead : ¬ isLead unit = true :=
      fun hunit => halone ⟨hunit, hlead hunit⟩
    have hnotTrail : ¬ isTrail unit = true :=
      fun hunit => halone' ⟨hunit, htrail hunit⟩
    rw [Ibc.isLead_iff] at hnotLead
    rw [Ibc.isTrail_iff] at hnotTrail
    exact isText_singleton (by omega)

theorem encodeUnit_surrogate
    {before after : Option UInt16} {unit : UInt16}
    (hrange : 0xD800 ≤ unit.toNat)
    (hlead : isLead unit = true → after.any isTrail = true)
    (htrail : isTrail unit = true → before.any isLead = true) :
    encodeUnit before unit after = [unit] := by
  have hne : ∀ other : UInt16, other.toNat < 0xD800 → unit ≠ other := by
    rintro other hother rfl
    omega
  have hcontrol : ¬ unit < 0x20 := by
    rw [UInt16.lt_iff_toNat_lt]
    show ¬ unit.toNat < 32
    omega
  unfold encodeUnit
  rw [if_neg (hne _ (by decide)), if_neg (hne _ (by decide)),
    if_neg (hne _ (by decide)), if_neg (hne _ (by decide)),
    if_neg (hne _ (by decide)), if_neg hcontrol,
    if_neg (not_or.mpr ⟨hne _ (by decide), hne _ (by decide)⟩),
    if_neg (fun halone => halone.2 (hlead halone.1)),
    if_neg (fun halone => halone.2 (htrail halone.1))]

/-- Unless the text goes on in the middle of a pair. -/
theorem isText_encodeUnits
    (units : Units) {before : Option UInt16}
    (hbefore : before.any isLead = true → ¬ units.head?.any isTrail = true) :
    IsText (encodeUnits before units) := by
  -- A pair is two units, so the induction is on the length.
  induction hlength : units.length using Nat.strong_induction_on
    generalizing units before with
  | _ length ih =>
      subst hlength
      cases units with
      | nil => exact isText_nil
      | cons unit rest =>
          have htrail : isTrail unit = true → ¬ before.any isLead = true :=
            fun hunit hlead => hbefore hlead hunit
          by_cases hpair : isLead unit = true ∧ rest.head?.any isTrail = true
          · obtain ⟨hunit, hnext⟩ := hpair
            cases rest with
            | nil => exact absurd hnext Bool.false_ne_true
            | cons trail rest =>
                have hlead := (Ibc.isLead_iff unit).mp hunit
                have htrailing := (Ibc.isTrail_iff trail).mp hnext
                have hnotTrail : ¬ isTrail unit = true := by
                  rw [Ibc.isTrail_iff]
                  omega
                have hnotLead : ¬ isLead trail = true := by
                  rw [Ibc.isLead_iff]
                  omega
                have hfirst : encodeUnit before unit (some trail) = [unit] :=
                  encodeUnit_surrogate hlead.1 (fun _ => hnext)
                    (fun hsome => absurd hsome hnotTrail)
                have hsecond : encodeUnit (some unit) trail rest.head? =
                    [trail] :=
                  encodeUnit_surrogate (by omega)
                    (fun hsome => absurd hsome hnotLead) (fun _ => hunit)
                have hrest : IsText (encodeUnits (some trail) rest) :=
                  ih rest.length (by simp) rest
                    (fun hsome => absurd hsome hnotLead) rfl
                rw [encodeUnits, encodeUnits, List.head?_cons, hfirst, hsecond,
                  ← List.append_assoc]
                exact (isText_pair hunit hnext).append hrest
          · have hlead : isLead unit = true → ¬ rest.head?.any isTrail = true :=
              fun hunit hnext => hpair ⟨hunit, hnext⟩
            rw [encodeUnits]
            exact (isText_encodeUnit hlead htrail).append
              (ih rest.length (by simp) rest hlead rfl)

theorem isText_intText (number : ℤ) : IsText (intText number).units := by
  have hdigits : ∀ count, ∀ unit ∈ Ibc.digitUnits count,
      unit.toNat < 0xD800 := by
    intro count unit hunit
    have hdigit := Ibc.isDigit_of_mem_digitUnits hunit
    rw [Ibc.isDigit, Bool.and_eq_true, decide_eq_true_eq, decide_eq_true_eq,
      UInt16.le_iff_toNat_le, UInt16.le_iff_toNat_le] at hdigit
    have hle : unit.toNat ≤ 0x39 := hdigit.2
    omega
  apply isText_of_forall
  rw [Ibc.units_intText]
  split_ifs
  · exact hdigits _
  · exact List.forall_mem_cons.mpr ⟨by decide, hdigits _⟩

theorem isText_write (value : Value Utf16 ℤ) :
    IsText (JsonText.write spelling value) := by
  apply JsonText.write_induction spelling
  · intro unit hunit
    have hlow : unit.toNat < 0x80 := UInt16.lt_iff_toNat_lt.mp hunit
    exact isText_singleton (Or.inl (by omega))
  · exact isText_nil
  · exact fun _ _ hfront hback => hfront.append hback
  · intro text
    have hunits : IsText (encodeUnits none text.units) :=
      isText_encodeUnits text.units (fun hnone => nomatch hnone)
    exact hunits.append (isText_singleton (Or.inl (by decide)))
  · exact isText_intText

/-! ## Base64 -/

/-- The digit behind a unit; both alphabets are read. -/
def base64Value (unit : UInt16) : Option ℕ :=
  if 0x41 ≤ unit ∧ unit ≤ 0x5A then some (unit.toNat - 0x41)
  else if 0x61 ≤ unit ∧ unit ≤ 0x7A then some (unit.toNat - 0x61 + 26)
  else if 0x30 ≤ unit ∧ unit ≤ 0x39 then some (unit.toNat - 0x30 + 52)
  else if unit = 0x2B ∨ unit = 0x2D then some 62
  else if unit = 0x2F ∨ unit = 0x5F then some 63
  else none

def base64Alphabet : Base64.Alphabet where
  digit := base64Digit
  value := base64Value
  value_digit := by decide
  value_padding := by decide

/-- `base64Decode`. -/
def base64Decode (text : Utf16) : Option (List UInt8) :=
  Base64.decode base64Alphabet text.units

theorem base64Units_eq (bytes : List UInt8) :
    base64Units bytes = Base64.encode base64Alphabet bytes := by
  fun_induction base64Units bytes with
  | case1 => rfl
  | case2 a => rfl
  | case3 a b => rfl
  | case4 a b c rest ih =>
      rw [Base64.encode, ih]
      rfl

theorem base64Decode_base64Encode (bytes : List UInt8) :
    base64Decode (base64Encode bytes) = some bytes := by
  rw [base64Decode, base64Encode, base64Units_eq, Base64.decode_encode]

/-! ## Reading a transaction -/

def txBytes (value : Value Utf16 ℤ) : Utf16 :=
  base64Encode (utf8Encode ⟨JsonText.write spelling value⟩)

/-- The values of a transaction, with the amounts as they are written. -/
inductive Told where
  | transfer (recipient amount memo : Utf16) (sequence : ℤ)
  | ibc (receiver amount chainId channelId : Utf16)
  | stake (action : StakeActionType) (validator : Utf16)
      (destinationValidator : Option Utf16) (amount : Utf16)
  | vote (proposalId : ℤ) (option : GovernanceVoteOption) (reason : Utf16)
  | multisig (taskId txDigest : Utf16) (approvedSigners : List Utf16)
      (threshold sequence : ℤ)
  deriving DecidableEq

def optionalText : Option Utf16 → Value Utf16 ℤ
  | none => .null
  | some text => .text text

def Told.value (walletAddress : Utf16) : Told → Value Utf16 ℤ
  | .transfer recipient amount memo sequence =>
      .map
        [("from", .text walletAddress), ("to", .text recipient),
          ("amount", .text amount), ("denom", .text "usoul"),
          ("memo", .text memo), ("sequence", .number sequence)]
  | .ibc receiver amount chainId channelId =>
      .map
        [("from", .text walletAddress), ("to", .text receiver),
          ("amount", .text amount), ("denom", .text "usoul"),
          ("memo", .text ("ibc:" ++ chainId ++ ":" ++ channelId)),
          ("channel_id", .text channelId),
          ("destination_chain_id", .text chainId)]
  | .stake action validator destinationValidator amount =>
      .map
        [("module", .text "staking"), ("action", .text (actionLabel action)),
          ("validator", .text validator),
          ("destinationValidator", optionalText destinationValidator),
          ("amount", .text amount), ("denom", .text "usoul"),
          ("delegator", .text walletAddress)]
  | .vote proposalId option reason =>
      .map
        [("module", .text "governance"), ("proposalId", .number proposalId),
          ("option", .text (voteOption option)), ("reason", .text reason),
          ("voter", .text walletAddress)]
  | .multisig taskId txDigest approvedSigners threshold sequence =>
      .map
        [("taskId", .text taskId), ("txDigest", .text txDigest),
          ("approvedSigners", .list (approvedSigners.map .text)),
          ("threshold", .number threshold), ("sequence", .number sequence)]

theorem actionLabel_injective : Function.Injective actionLabel := by
  intro left right hsame
  cases left <;> cases right <;>
    first | rfl | exact absurd hsame (by decide)

theorem voteOption_injective : Function.Injective voteOption := by
  intro left right hsame
  cases left <;> cases right <;>
    first | rfl | exact absurd hsame (by decide)

theorem optionalText_injective : Function.Injective optionalText := by
  rintro (_ | left) (_ | right) hsame
  · rfl
  · cases hsame
  · cases hsame
  · cases hsame
    rfl

theorem map_text_injective :
    Function.Injective (List.map (@Value.text Utf16 ℤ)) :=
  List.map_injective_iff.mpr fun _ _ hsame => Value.text.inj hsame

theorem value_injective (walletAddress : Utf16) :
    Function.Injective (Told.value walletAddress) := by
  -- The kinds differ in the number of the values or in the first key.
  have hkeys : ("module" : Utf16) ≠ "from" ∧ ("taskId" : Utf16) ≠ "module" := by
    decide
  intro left right hsame
  cases left <;> cases right <;>
    simp only [Told.value, Value.map.injEq, List.cons.injEq, Prod.mk.injEq,
      Value.text.injEq, Value.number.injEq, Value.list.injEq, true_and,
      and_true, reduceCtorEq, and_false, hkeys.1, hkeys.1.symm, hkeys.2,
      hkeys.2.symm, false_and, actionLabel_injective.eq_iff,
      voteOption_injective.eq_iff, optionalText_injective.eq_iff,
      map_text_injective.eq_iff] at hsame
  case transfer.transfer =>
    obtain ⟨rfl, rfl, rfl, rfl⟩ := hsame
    rfl
  case ibc.ibc =>
    obtain ⟨rfl, rfl, -, rfl, rfl⟩ := hsame
    rfl
  case stake.stake =>
    obtain ⟨rfl, rfl, rfl, rfl⟩ := hsame
    rfl
  case vote.vote =>
    obtain ⟨rfl, rfl, rfl⟩ := hsame
    rfl
  case multisig.multisig =>
    obtain ⟨rfl, rfl, rfl, rfl, rfl⟩ := hsame
    rfl

/-! ## The five functions -/

/-- A call of one of the functions, with the answers it gets. -/
inductive Flow where
  | transfer (request : TransferRequest) (answers : TransferAnswers)
      (clock : Clock)
  | ibc (checked : Ibc.Transfer) (answer : Answer)
  | stake (request : StakeRequest) (answers : Answers) (now : ℤ)
  | vote (request : VoteRequest) (answers : Answers)
  | multisig (task : MultisigTask) (answers : MultisigAnswers) (now : ℤ)

variable (platform : Platform) (walletAddress : Utf16)

def Flow.calls : Flow → List ApiCall
  | .transfer request answers clock =>
      (submitTransfer platform walletAddress request answers clock).1
  | .ibc checked answer => ibcBroadcast platform walletAddress checked answer
  | .stake request answers now =>
      (runStakeFlow platform walletAddress request answers now).1
  | .vote request answers =>
      (submitVote platform walletAddress request answers).1
  | .multisig task answers now => (remoteSubmitter platform task answers now).1

variable {platform walletAddress}

section Posts

variable {calls : List ApiCall}

def posts (calls : List ApiCall) : List ApiCall :=
  calls.filter fun call => call.path = chainBroadcastTx

theorem posts_cons_of_ne
    {path : Utf16} (hpath : path ≠ chainBroadcastTx) (body : JsonValue)
    (answer : Answer) :
    posts (⟨path, body, answer⟩ :: calls) = posts calls :=
  List.filter_cons_of_neg (by simpa using hpath)

@[simp] theorem posts_read (body : JsonValue) (answer : Answer) :
    posts (⟨indexerState, body, answer⟩ :: calls) = posts calls :=
  posts_cons_of_ne (by decide) body answer

@[simp] theorem posts_challenged (body : JsonValue) (answer : Answer) :
    posts (⟨authSignatureChallenge, body, answer⟩ :: calls) = posts calls :=
  posts_cons_of_ne (by decide) body answer

@[simp] theorem posts_confirmed (body : JsonValue) (answer : Answer) :
    posts (⟨authSignatureConfirm, body, answer⟩ :: calls) = posts calls :=
  posts_cons_of_ne (by decide) body answer

@[simp] theorem posts_sent (body : JsonValue) (answer : Answer) :
    posts [⟨chainBroadcastTx, body, answer⟩] =
      [⟨chainBroadcastTx, body, answer⟩] :=
  List.filter_cons_of_pos (by simp)

@[simp] theorem posts_nil : posts [] = [] :=
  List.filter_nil

end Posts

end SoulonWallet.TransactionFlows
