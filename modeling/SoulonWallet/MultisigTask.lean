import SoulonWallet.SignerModel
import SoulonWallet.Utf16Text

/-!
# Multisig tasks

A task collects the approvals of `threshold` of its signers.
`assertTaskModel` checks that its lists form a `SignerModel`, and
`mergeApproval` moves one signer from pending to approved.  Every exception
that leaves these functions is a `FormatException`; its message stands for it.

`DateTime.now()` is read more than once in some statements; a `Clock` holds
the readings of one turn in their order.
-/

namespace SoulonWallet.Multisig

structure DateTime where
  year : ℤ
  month : ℕ
  day : ℕ
  hour : ℕ
  minute : ℕ
  second : ℕ
  millisecond : ℕ
  microsecond : ℕ
  deriving DecidableEq

namespace DateTime

def digits (number width : ℕ) : Utf16 :=
  (Utf16.ofNat number).padLeft width 48

def yearText (year : ℤ) : Utf16 :=
  if -9999 ≤ year ∧ year ≤ 9999 then
    (if year < 0 then "-" else "") ++ digits year.natAbs 4
  else (if year < 0 then "-" else "+") ++ digits year.natAbs 6

def toIso8601String (time : DateTime) : Utf16 :=
  yearText time.year ++ "-" ++ digits time.month 2 ++ "-" ++
    digits time.day 2 ++ "T" ++ digits time.hour 2 ++ ":" ++
    digits time.minute 2 ++ ":" ++ digits time.second 2 ++ "." ++
    digits time.millisecond 3 ++
    (if time.microsecond = 0 then ("" : Utf16)
      else digits time.microsecond 3)

end DateTime

structure Clock where
  first : DateTime
  second : DateTime

inductive MultisigTaskStatus where
  | pending
  | approving
  | ready
  | submitting
  | submitted
  | confirmed
  | rejected
  deriving DecidableEq

structure OfflineSignatureEntry where
  signer : Utf16
  signatureDigest : Utf16
  accepted : Bool
  message : Utf16
  deriving DecidableEq

structure MultisigTask where
  id : Utf16
  title : Utf16
  description : Utf16
  allSigners : List Utf16
  threshold : ℤ
  totalSigners : ℤ
  collectedSigners : ℤ
  pendingSigners : List Utf16
  approvedSigners : List Utf16
  txDigest : Utf16
  updatedAt : DateTime
  status : MultisigTaskStatus
  lastImportEntries : List OfflineSignatureEntry := []
  approvalLogs : List Utf16 := []
  onChainTxHash : Option Utf16 := none
  onChainHeight : Option ℤ := none
  submittedAt : Option DateTime := none
  deriving DecidableEq

structure MultisigOnChainReceipt where
  txHash : Utf16
  height : ℤ
  confirmed : Bool
  statusText : Utf16
  deriving DecidableEq

/-- The 31-bit fold of the code units, in ten hexadecimal digits. -/
def digest (seed : Utf16) : Utf16 :=
  let raw := seed.units.foldl
    (fun hash code => ((hash * 37) ^^^ code.toNat) &&& 0x7fffffff) 0
  (Utf16.ofNatHex raw).padLeft 10 48

/-- The signer, the signature and the optional digest of one line. -/
def parseLine (line : Utf16) : Option (Utf16 × Utf16 × Option Utf16) :=
  let parsed :=
    match line.split 58 with
    | [signer, signature] => some (signer.trim, signature.trim, none)
    | [signer, signature, txDigest] =>
        some (signer.trim, signature.trim, some txDigest.trim)
    | _ => none
  parsed.filter fun parts => !parts.1.isEmpty && !parts.2.1.isEmpty

def isHexDigit (unit : UInt16) : Bool :=
  (48 ≤ unit && unit ≤ 57) || (65 ≤ unit && unit ≤ 70) ||
    (97 ≤ unit && unit ≤ 102)

/-- The pattern `^0x[0-9A-Fa-f]{8,}$`. -/
def isSignatureFormatValid (signature : Utf16) : Bool :=
  match signature.trim.units with
  | zero :: x :: rest =>
      zero == 48 && x == 120 && decide (8 ≤ rest.length) &&
        rest.all isHexDigit
  | _ => false

namespace MultisigTask

def isApprovalMutable (task : MultisigTask) : Bool :=
  task.status != .rejected && task.status != .submitting &&
    task.status != .submitted && task.status != .confirmed

def isQuorumReached (task : MultisigTask) : Bool :=
  decide (task.threshold ≤ task.collectedSigners) &&
    decide (task.threshold ≤ task.approvedSigners.length)

/-- The checks of a task; sets are lists without repetitions. -/
def assertTaskModel (task : MultisigTask) : Except Utf16 Unit :=
  let allSigners := task.allSigners.dedup
  let approved := task.approvedSigners.dedup
  let pending := task.pendingSigners.dedup
  if task.threshold ≤ 0 ∨ task.totalSigners ≤ 0 then
    .error ("任务 " ++ task.id ++ " 的 M-of-N 配置无效")
  else if task.totalSigners < task.threshold then
    .error ("任务 " ++ task.id ++ " 的阈值超过签名人数")
  else if (allSigners.length : ℤ) ≠ task.totalSigners then
    .error ("任务 " ++ task.id ++ " 的签名人配置与 N 不一致")
  else if approved.length ≠ task.approvedSigners.length ∨
      pending.length ≠ task.pendingSigners.length then
    .error ("任务 " ++ task.id ++ " 存在重复签名人")
  else if ∃ signer ∈ approved, signer ∈ pending then
    .error ("任务 " ++ task.id ++ " 的已签与待签列表冲突")
  else if (approved.length : ℤ) ≠ task.collectedSigners then
    .error ("任务 " ++ task.id ++ " 的签名计数与已签人数不一致")
  else if approved.length + pending.length ≠ allSigners.length then
    .error ("任务 " ++ task.id ++ " 的签名人清单不完整")
  else if ¬ (∀ signer ∈ approved, signer ∈ allSigners) ∨
      ¬ (∀ signer ∈ pending, signer ∈ allSigners) then
    .error ("任务 " ++ task.id ++ " 存在未登记签名人")
  else .ok ()

def mergeApproval (task : MultisigTask) (signer source : Utf16)
    (signatureDigest : Option Utf16) (clock : Clock) :
    Except Utf16 MultisigTask :=
  if ¬ task.isApprovalMutable then .error "当前任务状态不可继续审批"
  else if signer ∉ task.pendingSigners then
    .error ("签名人 " ++ signer ++ " 不在待签列表中")
  else
    let approved := task.approvedSigners ++ [signer]
    let logDigest := signatureDigest.getD
      (digest (source ++ "|" ++ signer ++ "|" ++ task.txDigest))
    .ok { task with
      pendingSigners := task.pendingSigners.filter fun item => item != signer
      approvedSigners := approved
      collectedSigners := approved.length
      status :=
        if task.threshold ≤ approved.length then .ready else .approving
      updatedAt := clock.first
      approvalLogs := task.approvalLogs ++
        ["[" ++ clock.second.toIso8601String ++ "] " ++ source ++ " 通过：" ++
          signer ++ " (sig:" ++ logDigest ++ ")"] }

/-! ## The model of a task -/

def WellFormed (task : MultisigTask) : Prop :=
  SignerModel task.allSigners task.approvedSigners task.pendingSigners
    task.threshold task.totalSigners task.collectedSigners

theorem check_eq_ok_iff
    {failed : Prop} [Decidable failed] {message : Utf16}
    {rest : Except Utf16 Unit} :
    (if failed then .error message else rest) = .ok () ↔
      ¬ failed ∧ rest = .ok () := by
  by_cases h : failed <;> simp [h]

theorem dedup_length_eq_iff (signers : List Utf16) :
    signers.dedup.length = signers.length ↔ signers.Nodup := by
  constructor
  · intro hlength
    rw [← (List.dedup_sublist signers).eq_of_length hlength]
    exact List.nodup_dedup signers
  · intro hnodup
    rw [hnodup.dedup]

theorem assertTaskModel_eq_ok_iff
    {task : MultisigTask} :
    task.assertTaskModel = .ok () ↔ task.WellFormed := by
  unfold assertTaskModel
  simp only [check_eq_ok_iff, dedup_length_eq_iff, List.mem_dedup, ne_eq,
    not_or, not_not, not_le, not_lt, and_true]
  constructor
  · intro hchecks
    rcases hchecks with ⟨⟨hpositive, -⟩, hthreshold, htotal,
      ⟨happroved, hpending⟩, hconflict, hcollected, hcomplete,
      hallApproved, hallPending⟩
    rw [happroved.dedup] at hcollected hcomplete
    rw [hpending.dedup] at hcomplete
    exact
      { threshold_pos := hpositive
        threshold_le := hthreshold
        total_eq := htotal
        approved_nodup := happroved
        pending_nodup := hpending
        disjoint := fun signer hsigner hother =>
          hconflict ⟨signer, hsigner, hother⟩
        collected_eq := hcollected
        complete := hcomplete
        approved_registered := hallApproved
        pending_registered := hallPending }
  · intro hmodel
    have hpositive := hmodel.threshold_pos
    have hthreshold := hmodel.threshold_le
    refine ⟨⟨hpositive, by omega⟩, hthreshold, hmodel.total_eq,
      ⟨hmodel.approved_nodup, hmodel.pending_nodup⟩, ?_, ?_, ?_,
      hmodel.approved_registered, hmodel.pending_registered⟩
    · intro hconflict
      rcases hconflict with ⟨signer, happroved, hpending⟩
      exact hmodel.disjoint signer happroved hpending
    · rw [hmodel.approved_nodup.dedup]
      exact hmodel.collected_eq
    · rw [hmodel.approved_nodup.dedup, hmodel.pending_nodup.dedup]
      exact hmodel.complete

/-- A later version of a task: the same task of the same signers, with no
approval lost. -/
structure Evolves (task next : MultisigTask) : Prop where
  id_eq : next.id = task.id
  wellFormed : task.WellFormed → next.WellFormed
  approved_subset : task.approvedSigners ⊆ next.approvedSigners

theorem Evolves.refl (task : MultisigTask) : task.Evolves task :=
  ⟨rfl, fun hmodel => hmodel, List.Subset.refl _⟩

theorem Evolves.trans
    {task next last : MultisigTask}
    (hfirst : task.Evolves next) (hsecond : next.Evolves last) :
    task.Evolves last where
  id_eq := hsecond.id_eq.trans hfirst.id_eq
  wellFormed := fun hmodel => hsecond.wellFormed (hfirst.wellFormed hmodel)
  approved_subset :=
    List.Subset.trans hfirst.approved_subset hsecond.approved_subset

theorem Evolves.of_fields
    {task next : MultisigTask}
    (hid : next.id = task.id) (hall : next.allSigners = task.allSigners)
    (hthreshold : next.threshold = task.threshold)
    (htotal : next.totalSigners = task.totalSigners)
    (hcollected : next.collectedSigners = task.collectedSigners)
    (hpending : next.pendingSigners = task.pendingSigners)
    (happroved : next.approvedSigners = task.approvedSigners) :
    task.Evolves next where
  id_eq := hid
  wellFormed := by
    intro hmodel
    rw [WellFormed, hall, hthreshold, htotal, hcollected, hpending, happroved]
    exact hmodel
  approved_subset := by
    rw [happroved]
    exact List.Subset.refl _

theorem mergeApproval_cases
    {task next : MultisigTask} {signer source : Utf16}
    {signatureDigest : Option Utf16} {clock : Clock}
    (hmerge : task.mergeApproval signer source signatureDigest clock =
      .ok next) :
    task.isApprovalMutable = true ∧ signer ∈ task.pendingSigners ∧
      task.Evolves next := by
  unfold mergeApproval at hmerge
  split at hmerge
  next => simp at hmerge
  next hmutable =>
    split at hmerge
    next => simp at hmerge
    next hpending =>
      have hsigner : signer ∈ task.pendingSigners := not_not.mp hpending
      simp only [Except.ok.injEq] at hmerge
      subst next
      refine ⟨by simpa using hmutable, hsigner, rfl, ?_, ?_⟩
      · intro hmodel
        exact SignerModel.approve hmodel hsigner
      · exact List.subset_append_left _ _

end MultisigTask

end SoulonWallet.Multisig
