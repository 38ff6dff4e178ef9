import Mathlib.Tactic
import SoulonWallet.MultisigWorkbench

/-!
# The turns of the workbench

What the turns of a call can do, said once.  A first turn throws and leaves
the store as it is, or takes a copy of its task and waits.  A later turn throws
without a write, handles one of several lines, or ends its call with one write:
on well-formed tasks the check of `updateTask` passes, and all results about the
workbench start from these cases.
-/

namespace SoulonWallet.Multisig

/-- The local copy a call in flight will write back. -/
def InFlight.held : InFlight → MultisigTask
  | .approving task _ => task
  | .rejecting task _ => task
  | .importing offline => offline.currentTask
  | .submitting task _ => task

def Turn.Quiet (value : WorkbenchState) (turn : Turn) : Prop :=
  turn.writes = [] ∧ turn.value.tasks = value.tasks

namespace WorkbenchState

variable {value : WorkbenchState}

theorem updateTask_eq
    {task : MultisigTask} (hmodel : task.WellFormed)
    (next : WorkbenchState) (returned : WorkbenchState → Turn)
    (thrown : Utf16 → Turn) :
    next.updateTask task returned thrown =
      { returned (next.withTask task) with
        writes := task :: (returned (next.withTask task)).writes } := by
  simp [updateTask, MultisigTask.assertTaskModel_eq_ok_iff.mpr hmodel]

theorem mem_tasks_of_findTask
    {taskId : Utf16} {task : MultisigTask}
    (hfind : value.findTask taskId = some task) :
    task ∈ value.tasks ∧ task.id = taskId := by
  refine ⟨List.mem_of_find?_eq_some hfind, ?_⟩
  simpa using List.find?_some hfind

def startImport (value : WorkbenchState) : WorkbenchState :=
  { value.busy with
    importProgress := Binary64.ofInt 0
    importLogs := ["开始解析离线签名包..."] }

def startSubmission (value : WorkbenchState) (task : MultisigTask)
    (clock : Clock) : Turn :=
  value.busy.updateTask (task.inSubmission clock.first)
    (fun value =>
      { value.awaits (.submitting task clock.first) with
        submitted := [task.inSubmission clock.first] })
    value.busy.throws

end WorkbenchState

def OfflineImport.first (task : MultisigTask) (line : Utf16)
    (rest : List Utf16) : OfflineImport where
  index := 0
  total := (line :: rest).length
  line := line
  rest := rest
  entries := []
  seenSigners := ∅
  currentTask := task

/-! ## What a turn can do -/

def Call.taskId : Call → Option Utf16
  | .approveTask taskId _ => some taskId
  | .rejectTask taskId _ => some taskId
  | .importOfflineSignatures taskId _ => some taskId
  | .submitTaskOnChain taskId => some taskId
  | .clearImportProgress => none

/-- The first turns: a call throws and leaves the store as it is, or it takes
a copy of its task. -/
inductive Call.Starts (value : WorkbenchState) (clock : Clock) :
    Call → Turn → Prop
  | throws (call : Call) (message : Utf16) :
      Starts value clock call (value.throws message)
  | approves {taskId signer : Utf16} {task : MultisigTask}
      (hfind : value.findTask taskId = some task)
      (hpending : signer ∈ task.pendingSigners)
      (hprocessing : value.processing = false) :
      Starts value clock (.approveTask taskId signer)
        (value.busy.awaits (.approving task signer))
  | rejects {taskId signer : Utf16} {task : MultisigTask}
      (hfind : value.findTask taskId = some task)
      (hprocessing : value.processing = false) :
      Starts value clock (.rejectTask taskId signer)
        (value.busy.awaits (.rejecting task signer))
  | imports {taskId payload line : Utf16} {rest : List Utf16}
      {task : MultisigTask} (hfind : value.findTask taskId = some task)
      (hlines : ((payload.splitLines.map Utf16.trim).filter
        fun item => !item.isEmpty) = line :: rest) :
      Starts value clock (.importOfflineSignatures taskId payload)
        (value.startImport.awaits
          (.importing (OfflineImport.first task line rest)))
  | submits {taskId : Utf16} {task : MultisigTask}
      (hfind : value.findTask taskId = some task)
      (hprocessing : value.processing = false)
      (hquorum : task.isQuorumReached = true)
      (hstatus : task.status ≠ .confirmed) :
      Starts value clock (.submitTaskOnChain taskId)
        (value.startSubmission task clock)
  | clears :
      Starts value clock .clearImportProgress value.clearImportProgress

variable {value : WorkbenchState}

theorem Call.start_starts (call : Call) (clock : Clock) :
    call.Starts value clock (call.start value clock) := by
  cases call with
  | approveTask taskId signer =>
      simp only [Call.start, WorkbenchState.approveTask]
      split
      · exact .throws _ _
      next task hfind =>
        split
        · exact .throws _ _
        next hpending =>
          split
          · exact .throws _ _
          next hprocessing =>
            exact .approves hfind (not_not.mp hpending)
              (by simpa using hprocessing)
  | rejectTask taskId signer =>
      simp only [Call.start, WorkbenchState.rejectTask]
      split
      · exact .throws _ _
      next task hfind =>
        split
        · exact .throws _ _
        next hprocessing =>
          exact .rejects hfind (by simpa using hprocessing)
  | importOfflineSignatures taskId payload =>
      simp only [Call.start, WorkbenchState.importOfflineSignatures]
      split
      · exact .throws _ _
      next task hfind =>
        split
        · exact .throws _ _
        next line rest hlines =>
          rw [hlines]
          exact .imports hfind hlines
  | submitTaskOnChain taskId =>
      simp only [Call.start, WorkbenchState.submitTaskOnChain]
      split
      · exact .throws _ _
      next task hfind =>
        split
        · exact .throws _ _
        next hprocessing =>
          split
          · exact .throws _ _
          next hquorum =>
            split
            · exact .throws _ _
            next hstatus =>
              exact .submits hfind (by simpa using hprocessing)
                (not_not.mp hquorum) hstatus
  | clearImportProgress => exact .clears

/-- A line is refused, which leaves the task as it is, or merged. -/
theorem OfflineImport.handleLine_cases
    {toUpperCase : Utf16 → Utf16} {offline : OfflineImport} {clock : Clock}
    {handled : MultisigTask × Finset Utf16 × OfflineSignatureEntry}
    (hline : offline.handleLine toUpperCase clock = .ok handled) :
    (∃ signer signature message,
        handled = offline.refuse signer signature message) ∨
      ∃ signer signatureDigest,
        offline.currentTask.mergeApproval signer "离线导入"
          (some signatureDigest) clock = .ok handled.1 := by
  have hrefused : ∀ signer signature message : Utf16,
      (.ok (offline.refuse signer signature message) :
        Except Utf16 (MultisigTask × Finset Utf16 × OfflineSignatureEntry)) =
          .ok handled →
        ∃ signer signature message,
          handled = offline.refuse signer signature message := by
    intro signer signature message heq
    exact ⟨signer, signature, message, (Except.ok.inj heq).symm⟩
  unfold handleLine at hline
  split at hline
  · exact Or.inl (hrefused _ _ _ hline)
  next signer signature txDigest _ =>
    split at hline
    · exact Or.inl (hrefused _ _ _ hline)
    split at hline
    · exact Or.inl (hrefused _ _ _ hline)
    split at hline
    · exact Or.inl (hrefused _ _ _ hline)
    split at hline
    · exact Or.inl (hrefused _ _ _ hline)
    split at hline
    · exact Or.inl (hrefused _ _ _ hline)
    split at hline
    next => simp at hline
    next merged hmerge =>
      rw [← Except.ok.inj hline]
      exact Or.inr ⟨signer, digest signature, hmerge⟩

theorem OfflineImport.handleLine_evolves
    {toUpperCase : Utf16 → Utf16} {offline : OfflineImport} {clock : Clock}
    {handled : MultisigTask × Finset Utf16 × OfflineSignatureEntry}
    (hline : offline.handleLine toUpperCase clock = .ok handled) :
    offline.currentTask.Evolves handled.1 := by
  rcases handleLine_cases hline with
    ⟨signer, signature, message, rfl⟩ | ⟨signer, signatureDigest, hmerge⟩
  · exact MultisigTask.Evolves.refl _
  · exact (MultisigTask.mergeApproval_cases hmerge).2.2

/-- What a call in flight hands to `updateTask` in its last turn, and the
receipt it got. -/
inductive InFlight.Results (toUpperCase : Utf16 → Utf16) :
    InFlight → MultisigTask → List (Utf16 × MultisigOnChainReceipt) → Prop
  | approves {task updated : MultisigTask} {signer : Utf16} {clock : Clock}
      (hmerge : task.mergeApproval signer "在线审批" none clock =
        .ok updated) :
      Results toUpperCase (.approving task signer) updated []
  | rejects (task : MultisigTask) (signer : Utf16) (updatedAt : DateTime)
      (approvalLogs : List Utf16) :
      Results toUpperCase (.rejecting task signer)
        { task with status := .rejected, updatedAt, approvalLogs } []
  | imports {offline : OfflineImport} {clock : Clock}
      {handled : MultisigTask × Finset Utf16 × OfflineSignatureEntry}
      (hline : offline.handleLine toUpperCase clock = .ok handled) :
      Results toUpperCase (.importing offline)
        { handled.1 with
          lastImportEntries := offline.entries ++ [handled.2.2] } []
  | fails (task : MultisigTask) (startedAt updatedAt : DateTime) :
      Results toUpperCase (.submitting task startedAt)
        { task with status := .ready, updatedAt } []
  | submits (task : MultisigTask) (startedAt now : DateTime)
      (receipt : MultisigOnChainReceipt) (approvalLogs : List Utf16) :
      Results toUpperCase (.submitting task startedAt)
        { task with
          status := if receipt.confirmed then .confirmed else .submitted
          onChainTxHash := some receipt.txHash
          onChainHeight := some receipt.height
          submittedAt := some now
          updatedAt := now
          approvalLogs }
        [(task.id, receipt)]

theorem InFlight.Results.evolves
    {toUpperCase : Utf16 → Utf16} {inFlight : InFlight}
    {written : MultisigTask}
    {receipts : List (Utf16 × MultisigOnChainReceipt)}
    (hresults : inFlight.Results toUpperCase written receipts) :
    inFlight.held.Evolves written := by
  cases hresults with
  | approves hmerge => exact (MultisigTask.mergeApproval_cases hmerge).2.2
  | rejects | fails | submits =>
      exact .of_fields rfl rfl rfl rfl rfl rfl rfl
  | imports hline =>
      exact (OfflineImport.handleLine_evolves hline).trans
        (.of_fields rfl rfl rfl rfl rfl rfl rfl)

/-- A turn that touches no task and ends its call. -/
structure Turn.Idle (value : WorkbenchState) (turn : Turn) : Prop where
  quiet : turn.Quiet value
  ends : ∀ inFlight, turn.next ≠ .ok (some inFlight)
  submitted : turn.submitted = []
  receipts : turn.receipts = []

structure Turn.Ends (value : WorkbenchState) (written : MultisigTask)
    (receipts : List (Utf16 × MultisigOnChainReceipt)) (turn : Turn) :
    Prop where
  writes : turn.writes = [written]
  tasks : turn.value.tasks = (value.withTask written).tasks
  ends : ∀ inFlight, turn.next ≠ .ok (some inFlight)
  submitted : turn.submitted = []
  receipts_eq : turn.receipts = receipts

theorem Turn.Ends.withReceipts
    {turn : Turn} {written : MultisigTask}
    {receipts : List (Utf16 × MultisigOnChainReceipt)}
    (hends : turn.Ends value written receipts)
    (answered : List (Utf16 × MultisigOnChainReceipt)) :
    ({ turn with receipts := answered } : Turn).Ends value written answered :=
  ⟨hends.writes, hends.tasks, hends.ends, hends.submitted, rfl⟩

namespace WorkbenchState

theorem throws_idle
    {next : WorkbenchState} (message : Utf16)
    (htasks : next.tasks = value.tasks) :
    (next.throws message).Idle value :=
  ⟨⟨rfl, htasks⟩, by simp [throws], rfl, rfl⟩

theorem returns_idle
    {next : WorkbenchState} (htasks : next.tasks = value.tasks) :
    next.returns.Idle value :=
  ⟨⟨rfl, htasks⟩, by simp [returns], rfl, rfl⟩

/-- The check of a well-formed task passes, so the turn ends as it does after
`updateTask`. -/
theorem updateTask_ends
    {next : WorkbenchState} {written : MultisigTask}
    {returned : WorkbenchState → Turn} {thrown : Utf16 → Turn}
    (hmodel : written.WellFormed) (htasks : next.tasks = value.tasks)
    (hreturned : (returned (next.withTask written)).Idle
      (next.withTask written)) :
    (next.updateTask written returned thrown).Ends value written [] := by
  rw [updateTask_eq hmodel]
  refine ⟨?_, ?_, hreturned.ends, hreturned.submitted, hreturned.receipts⟩
  · rw [hreturned.quiet.1]
  · rw [hreturned.quiet.2]
    simp [withTask, htasks]

end WorkbenchState

/-- The later turns: a call throws without a write, handles one of several
lines, or ends with its write. -/
inductive InFlight.Moves (toUpperCase : Utf16 → Utf16)
    (value : WorkbenchState) : InFlight → Turn → Prop
  | throws (inFlight : InFlight) {next : WorkbenchState} (message : Utf16)
      (htasks : next.tasks = value.tasks) :
      Moves toUpperCase value inFlight (next.throws message)
  | handles {offline later : OfflineImport} {clock : Clock}
      {handled : MultisigTask × Finset Utf16 × OfflineSignatureEntry}
      {next : WorkbenchState}
      (hline : offline.handleLine toUpperCase clock = .ok handled)
      (hlater : later.currentTask = handled.1)
      (htasks : next.tasks = value.tasks)
      (hprocessing : next.processing = value.processing) :
      Moves toUpperCase value (.importing offline)
        (next.awaits (.importing later))
  | writes {inFlight : InFlight} {written : MultisigTask}
      {receipts : List (Utf16 × MultisigOnChainReceipt)} {turn : Turn}
      (hresults : inFlight.Results toUpperCase written receipts)
      (hends : turn.Ends value written receipts) :
      Moves toUpperCase value inFlight turn

theorem InFlight.resume_moves
    {toUpperCase : Utf16 → Utf16} {clock : Clock} {inFlight : InFlight}
    {turn : Turn} (hmodel : inFlight.held.WellFormed)
    (hresume : inFlight.resume toUpperCase value clock = some turn) :
    inFlight.Moves toUpperCase value turn := by
  cases inFlight with
  | approving task signer =>
      rw [← Option.some.inj hresume]
      unfold WorkbenchState.finishApproval
      cases hmerge : task.mergeApproval signer "在线审批" none clock with
      | error message => exact .throws _ message rfl
      | ok updated =>
          have hresults : Results toUpperCase (.approving task signer)
              updated [] := .approves hmerge
          exact .writes hresults (WorkbenchState.updateTask_ends
            (hresults.evolves.wellFormed hmodel) rfl
            (WorkbenchState.returns_idle rfl))
  | rejecting task signer =>
      rw [← Option.some.inj hresume]
      exact .writes (.rejects task signer _ _)
        (WorkbenchState.updateTask_ends hmodel rfl
          (WorkbenchState.returns_idle rfl))
  | importing offline =>
      rw [← Option.some.inj hresume]
      unfold WorkbenchState.importLine
      cases hline : offline.handleLine toUpperCase clock with
      | error message => exact .throws _ message rfl
      | ok handled =>
          cases offline.rest with
          | cons line rest => exact .handles hline rfl rfl rfl
          | nil =>
              have hresults := Results.imports hline
              exact .writes hresults (WorkbenchState.updateTask_ends
                (hresults.evolves.wellFormed hmodel) rfl
                (WorkbenchState.returns_idle rfl))
  | submitting task startedAt => simp [InFlight.resume] at hresume

theorem InFlight.answer_moves
    (toUpperCase : Utf16 → Utf16) {outcome : SubmitOutcome} {clock : Clock}
    {inFlight : InFlight} {turn : Turn} (hmodel : inFlight.held.WellFormed)
    (hanswer : inFlight.answer value outcome clock = some turn) :
    inFlight.Moves toUpperCase value turn := by
  cases inFlight with
  | submitting task startedAt =>
      cases outcome with
      | receipt receipt =>
          rw [← Option.some.inj hanswer]
          apply Moves.writes (.submits task startedAt clock.first receipt _)
          apply Turn.Ends.withReceipts
          exact WorkbenchState.updateTask_ends hmodel rfl
            (WorkbenchState.returns_idle rfl)
      | apiClientException message | formatException message | otherError =>
          rw [← Option.some.inj hanswer]
          exact .writes (.fails task startedAt clock.first)
            (WorkbenchState.updateTask_ends hmodel rfl
              (WorkbenchState.throws_idle _ rfl))
  | approving | rejecting | importing => simp [InFlight.answer] at hanswer

/-- A call in flight goes on with a turn, after a delay or after an answer of
the submitter. -/
def InFlight.Yields (toUpperCase : Utf16 → Utf16) (value : WorkbenchState)
    (inFlight : InFlight) (turn : Turn) : Prop :=
  (∃ clock, inFlight.resume toUpperCase value clock = some turn) ∨
    ∃ outcome clock, inFlight.answer value outcome clock = some turn

theorem InFlight.Yields.moves
    {toUpperCase : Utf16 → Utf16} {inFlight : InFlight} {turn : Turn}
    (hyields : inFlight.Yields toUpperCase value turn)
    (hmodel : inFlight.held.WellFormed) :
    inFlight.Moves toUpperCase value turn := by
  rcases hyields with ⟨clock, hresume⟩ | ⟨outcome, clock, hanswer⟩
  · exact InFlight.resume_moves hmodel hresume
  · exact InFlight.answer_moves toUpperCase hmodel hanswer

def Label.call : Label → Option ℕ
  | .start _ _ => none
  | .resume id _ => some id
  | .answer id _ _ => some id

namespace Workbench

theorem step_cases
    {toUpperCase : Utf16 → Utf16} {workbench next : Workbench}
    {label : Label} (hstep : workbench.step toUpperCase label = some next) :
    (∃ call clock, label = .start call clock ∧
        next = { workbench with nextCall := workbench.nextCall + 1 }.settle
          workbench.nextCall call (call.start workbench.value clock)) ∨
      ∃ id call inFlight turn, label.call = some id ∧
        workbench.calls.lookup id = some (call, inFlight) ∧
        inFlight.Yields toUpperCase workbench.value turn ∧
        next = workbench.settle id call turn := by
  cases label with
  | start call clock =>
      exact Or.inl ⟨call, clock, rfl, (Option.some.inj hstep).symm⟩
  | resume id clock =>
      cases hlookup : workbench.calls.lookup id with
      | none => simp [step, hlookup] at hstep
      | some waiting =>
          rcases waiting with ⟨call, inFlight⟩
          cases hresume : inFlight.resume toUpperCase workbench.value clock
            with
          | none => simp [step, hlookup, hresume] at hstep
          | some turn =>
              simp only [step, hlookup, hresume, Option.some.injEq] at hstep
              exact Or.inr ⟨id, call, inFlight, turn, rfl, hlookup,
                Or.inl ⟨clock, hresume⟩, hstep.symm⟩
  | answer id outcome clock =>
      cases hlookup : workbench.calls.lookup id with
      | none => simp [step, hlookup] at hstep
      | some waiting =>
          rcases waiting with ⟨call, inFlight⟩
          cases hanswer : inFlight.answer workbench.value outcome clock with
          | none => simp [step, hlookup, hanswer] at hstep
          | some turn =>
              simp only [step, hlookup, hanswer, Option.some.injEq] at hstep
              exact Or.inr ⟨id, call, inFlight, turn, rfl, hlookup,
                Or.inr ⟨outcome, clock, hanswer⟩, hstep.symm⟩

theorem lookup_settle
    {workbench : Workbench} {id other : ℕ} {call otherCall : Call}
    {turn : Turn} {inFlight : InFlight}
    (hlookup : (workbench.settle id call turn).calls.lookup other =
      some (otherCall, inFlight)) :
    (other = id ∧ otherCall = call ∧ turn.next = .ok (some inFlight)) ∨
      (other ≠ id ∧
        workbench.calls.lookup other = some (otherCall, inFlight)) := by
  by_cases heq : other = id
  · subst other
    simp only [settle] at hlookup
    split at hlookup
    next waiting hnext =>
      rw [AList.lookup_insert, Option.some.injEq, Prod.mk.injEq] at hlookup
      rw [hnext, hlookup.2]
      exact Or.inl ⟨rfl, hlookup.1.symm, rfl⟩
    next => simp at hlookup
  · simp only [settle] at hlookup
    split at hlookup
    next => exact Or.inr ⟨heq, by rwa [AList.lookup_insert_ne heq] at hlookup⟩
    next => exact Or.inr ⟨heq, by rwa [AList.lookup_erase_ne heq] at hlookup⟩

end Workbench

end SoulonWallet.Multisig
