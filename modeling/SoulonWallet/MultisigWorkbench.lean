import SoulonWallet.Binary64
import SoulonWallet.KeyedMap
import SoulonWallet.MultisigTask

/-!
# The multisig workbench

The operations of `MultisigWorkbenchStore` run on the event loop: each of them
is a sequence of turns that are separated by its awaits, and the turns of the
calls in flight interleave freely.  A call in flight keeps local copies of the
task it works on.  A turn reads the clock at most twice; `submitTaskOnChain`
waits for the submitter, all other awaits are delays.

`Turn` says what one turn does: the new value of the store, the tasks it hands
to `updateTask` and to the submitter, the receipt it got, and whether the call
waits again, returns or throws.  `Workbench` keeps these in lists, the history
of the store.
-/

namespace SoulonWallet.Multisig

structure WorkbenchState where
  tasks : List MultisigTask
  processing : Bool := false
  importProgress : Binary64
  importLogs : List Utf16
  noticeText : Option Utf16 := none
  errorText : Option Utf16 := none

/-- The locals of `importOfflineSignatures` before it handles `line`. -/
structure OfflineImport where
  index : ℕ
  total : ℕ
  line : Utf16
  rest : List Utf16
  entries : List OfflineSignatureEntry
  seenSigners : Finset Utf16
  currentTask : MultisigTask

/-- A call that waits, with its local copy of the task. -/
inductive InFlight where
  | approving (task : MultisigTask) (signer : Utf16)
  | rejecting (task : MultisigTask) (signer : Utf16)
  | importing (offline : OfflineImport)
  | submitting (task : MultisigTask) (startedAt : DateTime)

def MultisigTask.inSubmission (task : MultisigTask) (startedAt : DateTime) :
    MultisigTask :=
  { task with status := .submitting, updatedAt := startedAt }

structure Turn where
  value : WorkbenchState
  next : Except Utf16 (Option InFlight)
  writes : List MultisigTask := []
  submitted : List MultisigTask := []
  receipts : List (Utf16 × MultisigOnChainReceipt) := []

namespace WorkbenchState

def returns (value : WorkbenchState) : Turn where
  value := value
  next := .ok none

def throws (value : WorkbenchState) (message : Utf16) : Turn where
  value := value
  next := .error message

def awaits (value : WorkbenchState) (inFlight : InFlight) : Turn where
  value := value
  next := .ok (some inFlight)

def busy (value : WorkbenchState) : WorkbenchState :=
  { value with processing := true, noticeText := none, errorText := none }

def idle (value : WorkbenchState) : WorkbenchState :=
  { value with processing := false }

def done (value : WorkbenchState) (noticeText : Utf16) : WorkbenchState :=
  { value with processing := false, noticeText := some noticeText }

def findTask (value : WorkbenchState) (taskId : Utf16) :
    Option MultisigTask :=
  value.tasks.find? fun task => task.id = taskId

def withTask (value : WorkbenchState) (nextTask : MultisigTask) :
    WorkbenchState :=
  { value with
    tasks := value.tasks.map fun item =>
      if item.id = nextTask.id then nextTask else item
    errorText := none }

/-- `updateTask`, followed by `returned` or, if the check of the task throws,
by `thrown`. -/
def updateTask (value : WorkbenchState) (nextTask : MultisigTask)
    (returned : WorkbenchState → Turn) (thrown : Utf16 → Turn) : Turn :=
  let turn :=
    match nextTask.assertTaskModel with
    | .ok () => returned (value.withTask nextTask)
    | .error message => thrown message
  { turn with writes := nextTask :: turn.writes }

/-! ## The first turns -/

def approveTask (value : WorkbenchState) (taskId signer : Utf16) : Turn :=
  match value.findTask taskId with
  | none => value.throws "未找到多签任务"
  | some task =>
      if signer ∉ task.pendingSigners then
        value.throws ("签名人 " ++ signer ++ " 不在待签列表中")
      else if value.processing then
        value.throws "当前有审批流程进行中，请稍候"
      else value.busy.awaits (.approving task signer)

def rejectTask (value : WorkbenchState) (taskId signer : Utf16) : Turn :=
  match value.findTask taskId with
  | none => value.throws "未找到多签任务"
  | some task =>
      if value.processing then
        value.throws "当前有审批流程进行中，请稍候"
      else value.busy.awaits (.rejecting task signer)

def importOfflineSignatures (value : WorkbenchState)
    (taskId payload : Utf16) : Turn :=
  match value.findTask taskId with
  | none => value.throws "请选择有效的多签任务"
  | some task =>
      let lines := (payload.splitLines.map Utf16.trim).filter
        fun item => !item.isEmpty
      match lines with
      | [] =>
          value.throws
            "请粘贴离线签名内容，每行一条 signer:signature:txDigest"
      | line :: rest =>
          { value.busy with
            importProgress := Binary64.ofInt 0
            importLogs := ["开始解析离线签名包..."] }.awaits
              (.importing
                { index := 0
                  total := lines.length
                  line
                  rest
                  entries := []
                  seenSigners := ∅
                  currentTask := task })

def submitTaskOnChain (value : WorkbenchState) (taskId : Utf16)
    (clock : Clock) : Turn :=
  match value.findTask taskId with
  | none => value.throws "未找到多签任务"
  | some task =>
      if value.processing then
        value.throws "当前有审批流程进行中，请稍候"
      else if ¬ task.isQuorumReached then
        value.throws "当前签名未达到阈值，无法链上提交"
      else if task.status = .confirmed then
        value.throws "任务已完成链上确认，无需重复提交"
      else
        value.busy.updateTask (task.inSubmission clock.first)
          (fun value =>
            { value.awaits (.submitting task clock.first) with
              submitted := [task.inSubmission clock.first] })
          value.busy.throws

def clearImportProgress (value : WorkbenchState) : Turn :=
  { value with
    importProgress := Binary64.ofInt 0
    importLogs := []
    noticeText := none
    errorText := none }.returns

/-! ## The later turns -/

def finishApproval (value : WorkbenchState) (task : MultisigTask)
    (signer : Utf16) (clock : Clock) : Turn :=
  match task.mergeApproval signer "在线审批" none clock with
  | .error message => value.idle.throws message
  | .ok updated =>
      let resultText : Utf16 :=
        if updated.status = .ready then "已达到阈值，可广播"
        else "审批通过，等待更多签名"
      value.updateTask updated
        (fun value =>
          (value.done ("任务 " ++ task.id ++ " 审批成功：" ++ signer ++ "，" ++
            resultText ++ "。")).returns)
        value.idle.throws

def finishRejection (value : WorkbenchState) (task : MultisigTask)
    (signer : Utf16) (clock : Clock) : Turn :=
  value.updateTask
    { task with
      status := .rejected
      updatedAt := clock.first
      approvalLogs := task.approvalLogs ++
        ["[" ++ clock.second.toIso8601String ++ "] 审批驳回：" ++ signer] }
    (fun value =>
      (value.done ("任务 " ++ task.id ++ " 已被 " ++ signer ++
        " 驳回，需重新发起审批。")).returns)
    value.idle.throws

end WorkbenchState

namespace OfflineImport

def refuse (offline : OfflineImport) (signer signature message : Utf16) :
    MultisigTask × Finset Utf16 × OfflineSignatureEntry :=
  (offline.currentTask, offline.seenSigners,
    { signer
      signatureDigest := digest signature
      accepted := false
      message })

/-- The task, the signers seen and the entry after the current line. -/
def handleLine (toUpperCase : Utf16 → Utf16) (offline : OfflineImport)
    (clock : Clock) :
    Except Utf16 (MultisigTask × Finset Utf16 × OfflineSignatureEntry) :=
  match parseLine offline.line with
  | none =>
      .ok (offline.refuse "unknown" offline.line
        "格式错误，要求 signer:signature:txDigest")
  | some (signer, signature, txDigest) =>
      if signer ∈ offline.seenSigners then
        .ok (offline.refuse signer signature "离线包内重复签名人")
      else if txDigest.getD "" = "" then
        .ok (offline.refuse signer signature
          "缺少交易摘要，无法做签名绑定验证")
      else if toUpperCase (txDigest.getD "") ≠
          toUpperCase offline.currentTask.txDigest then
        .ok (offline.refuse signer signature "交易摘要不匹配，签名已拒绝")
      else if ¬ isSignatureFormatValid signature then
        .ok (offline.refuse signer signature "签名格式无效")
      else if signer ∉ offline.currentTask.pendingSigners then
        .ok (offline.refuse signer signature "签名人不在待签列表")
      else
        match offline.currentTask.mergeApproval signer "离线导入"
            (some (digest signature)) clock with
        | .error message => .error message
        | .ok merged =>
            .ok (merged, insert signer offline.seenSigners,
              { signer
                signatureDigest := digest signature
                accepted := true
                message := "合并验证通过，已计入阈值进度" })

end OfflineImport

namespace WorkbenchState

/-- The turn for one line; the last one writes the task.  There is no `catch`:
an exception leaves `processing` set. -/
def importLine (toUpperCase : Utf16 → Utf16) (value : WorkbenchState)
    (offline : OfflineImport) (clock : Clock) : Turn :=
  match offline.handleLine toUpperCase clock with
  | .error message => value.throws message
  | .ok (currentTask, seenSigners, entry) =>
      let entries := offline.entries ++ [entry]
      let handled : WorkbenchState :=
        { value with
          importProgress :=
            (Binary64.ofInt (offline.index + 1)).div
              (Binary64.ofInt offline.total)
          importLogs := value.importLogs ++
            ["已处理 " ++ Utf16.ofNat (offline.index + 1) ++ "/" ++
              Utf16.ofNat offline.total ++ " 条签名"] }
      match offline.rest with
      | line :: rest =>
          handled.awaits
            (.importing
              { offline with
                index := offline.index + 1
                line
                rest
                entries
                seenSigners
                currentTask })
      | [] =>
          let accepted := entries.countP fun item => item.accepted
          handled.updateTask { currentTask with lastImportEntries := entries }
            (fun value =>
              (value.done ("离线签名导入完成：通过 " ++ Utf16.ofNat accepted ++
                " 条，拒绝 " ++ Utf16.ofNat (entries.length - accepted) ++
                " 条。")).returns)
            handled.throws

/-- The `catch` clauses of `submitTaskOnChain`. -/
def failSubmission (value : WorkbenchState) (task : MultisigTask)
    (updatedAt : DateTime) (message : Utf16) : Turn :=
  value.updateTask { task with status := .ready, updatedAt }
    (fun value => value.idle.throws message)
    value.throws

def finishSubmission (value : WorkbenchState) (task : MultisigTask)
    (startedAt : DateTime) (receipt : MultisigOnChainReceipt)
    (clock : Clock) : Turn :=
  let submittingTask := task.inSubmission startedAt
  let now := clock.first
  let txShort :=
    if receipt.txHash.length ≤ 12 then receipt.txHash
    else receipt.txHash.take 12
  let backfillLogs := submittingTask.approvedSigners.map fun signer =>
    "[" ++ now.toIso8601String ++ "] 审批回写：" ++ signer ++ " -> tx=" ++
      txShort ++ "..."
  let turn := value.updateTask
    { submittingTask with
      status := if receipt.confirmed then .confirmed else .submitted
      onChainTxHash := some receipt.txHash
      onChainHeight := some receipt.height
      submittedAt := some now
      updatedAt := now
      approvalLogs := submittingTask.approvalLogs ++ backfillLogs }
    (fun value =>
      (value.done ("任务 " ++ task.id ++ " 已提交链上：" ++
        receipt.statusText ++ "，审批结果已回写。")).returns)
    (value.failSubmission task clock.second)
  { turn with receipts := [(task.id, receipt)] }

end WorkbenchState

inductive SubmitOutcome where
  | receipt (receipt : MultisigOnChainReceipt)
  | apiClientException (message : Option Utf16)
  | formatException (message : Utf16)
  | otherError

namespace InFlight

def resume (toUpperCase : Utf16 → Utf16) (value : WorkbenchState)
    (clock : Clock) : InFlight → Option Turn
  | .approving task signer => some (value.finishApproval task signer clock)
  | .rejecting task signer => some (value.finishRejection task signer clock)
  | .importing offline => some (value.importLine toUpperCase offline clock)
  | .submitting _ _ => none

def answer (value : WorkbenchState) (outcome : SubmitOutcome)
    (clock : Clock) : InFlight → Option Turn
  | .submitting task startedAt =>
      match outcome with
      | .receipt receipt =>
          some (value.finishSubmission task startedAt receipt clock)
      | .apiClientException message =>
          some (value.failSubmission task clock.first
            ("链上提交失败：" ++ message.getD "网络异常"))
      | .formatException message =>
          some (value.failSubmission task clock.first message)
      | .otherError =>
          some (value.failSubmission task clock.first
            "链上提交失败，请稍后重试")
  | _ => none

end InFlight

inductive Call where
  | approveTask (taskId signer : Utf16)
  | rejectTask (taskId signer : Utf16)
  | importOfflineSignatures (taskId payload : Utf16)
  | submitTaskOnChain (taskId : Utf16)
  | clearImportProgress
  deriving DecidableEq

def Call.start (value : WorkbenchState) (clock : Clock) : Call → Turn
  | .approveTask taskId signer => value.approveTask taskId signer
  | .rejectTask taskId signer => value.rejectTask taskId signer
  | .importOfflineSignatures taskId payload =>
      value.importOfflineSignatures taskId payload
  | .submitTaskOnChain taskId => value.submitTaskOnChain taskId clock
  | .clearImportProgress => value.clearImportProgress

structure Workbench where
  value : WorkbenchState
  calls : KeyedMap ℕ (Call × InFlight)
  nextCall : ℕ
  writes : List MultisigTask
  submitted : List MultisigTask
  receipts : List (Utf16 × MultisigOnChainReceipt)
  finished : List (Call × Except Utf16 Unit)

inductive Label where
  | start (call : Call) (clock : Clock)
  | resume (id : ℕ) (clock : Clock)
  | answer (id : ℕ) (outcome : SubmitOutcome) (clock : Clock)

namespace Workbench

/-- The store of the constructor, which checks every seed task. -/
def create (seedTasks : List MultisigTask) : Except Utf16 Workbench :=
  match seedTasks.forM fun task => task.assertTaskModel with
  | .error message => .error message
  | .ok () =>
      .ok
        { value :=
            { tasks := seedTasks
              importProgress := Binary64.ofInt 0
              importLogs := [] }
          calls := ∅
          nextCall := 0
          writes := []
          submitted := []
          receipts := []
          finished := [] }

def settle (workbench : Workbench) (id : ℕ) (call : Call) (turn : Turn) :
    Workbench :=
  { workbench with
    value := turn.value
    calls :=
      match turn.next with
      | .ok (some inFlight) => workbench.calls.insert id (call, inFlight)
      | _ => workbench.calls.erase id
    writes := workbench.writes ++ turn.writes
    submitted := workbench.submitted ++ turn.submitted
    receipts := workbench.receipts ++ turn.receipts
    finished :=
      match turn.next with
      | .ok (some _) => workbench.finished
      | .ok none => workbench.finished ++ [(call, .ok ())]
      | .error message => workbench.finished ++ [(call, .error message)] }

def step (toUpperCase : Utf16 → Utf16) (workbench : Workbench) :
    Label → Option Workbench
  | .start call clock =>
      some ({ workbench with nextCall := workbench.nextCall + 1 }.settle
        workbench.nextCall call (call.start workbench.value clock))
  | .resume id clock =>
      match workbench.calls.lookup id with
      | none => none
      | some (call, inFlight) =>
          match inFlight.resume toUpperCase workbench.value clock with
          | none => none
          | some turn => some (workbench.settle id call turn)
  | .answer id outcome clock =>
      match workbench.calls.lookup id with
      | none => none
      | some (call, inFlight) =>
          match inFlight.answer workbench.value outcome clock with
          | none => none
          | some turn => some (workbench.settle id call turn)

end Workbench

end SoulonWallet.Multisig
