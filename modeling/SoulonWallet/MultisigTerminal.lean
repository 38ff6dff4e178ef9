import Mathlib.Tactic
import SoulonWallet.MultisigOverlap

/-!
# Rejected and confirmed tasks

Calls that run one after another still undo a decision: `submitTaskOnChain`
looks only for the confirmed status, so it submits a rejected task with a
quorum, and `rejectTask` looks at no status at all, so it rejects a confirmed
task.  When no call takes one of these two ways, a rejection or a confirmed
receipt freezes the task: its status stays and the submitter does not see it
again.
-/

namespace SoulonWallet.Multisig

open LabelledRun

def MultisigTaskStatus.Terminal (status : MultisigTaskStatus) : Prop :=
  status = .rejected ∨ status = .confirmed

theorem MultisigTask.not_isApprovalMutable
    {task : MultisigTask} (hterminal : task.status.Terminal) :
    task.isApprovalMutable = false := by
  rcases hterminal with hstatus | hstatus
  · simp [isApprovalMutable, hstatus]
  · simp [isApprovalMutable, hstatus]

/-- The copy of the call has the status, and the call will not change it. -/
def InFlight.Keeps (status : MultisigTaskStatus) : InFlight → Prop
  | .approving task _ => task.status = status
  | .rejecting task _ => task.status = status ∧ status = .rejected
  | .importing offline => offline.currentTask.status = status
  | .submitting _ _ => False

structure Turn.Keeps (status : MultisigTaskStatus) (turn : Turn) : Prop where
  writes : ∀ task ∈ turn.writes, task.status = status
  waits : ∀ inFlight, turn.next = .ok (some inFlight) →
    inFlight.Keeps status
  submitted : turn.submitted = []

variable {value : WorkbenchState} {status : MultisigTaskStatus}

theorem Turn.Idle.keeps
    {turn : Turn} (hidle : turn.Idle value) : turn.Keeps status where
  writes := by simp [hidle.quiet.1]
  waits := fun inFlight hnext => absurd hnext (hidle.ends inFlight)
  submitted := hidle.submitted

theorem WorkbenchState.awaits_keeps
    (value : WorkbenchState) {inFlight : InFlight}
    (hkeeps : inFlight.Keeps status) :
    (value.awaits inFlight).Keeps status where
  writes := by simp [awaits]
  waits := by
    intro other hnext
    simp only [awaits, Except.ok.injEq, Option.some.injEq] at hnext
    exact hnext ▸ hkeeps
  submitted := rfl

theorem OfflineImport.handleLine_status
    {toUpperCase : Utf16 → Utf16} {offline : OfflineImport} {clock : Clock}
    {handled : MultisigTask × Finset Utf16 × OfflineSignatureEntry}
    (hterminal : offline.currentTask.status.Terminal)
    (hline : offline.handleLine toUpperCase clock = .ok handled) :
    handled.1.status = offline.currentTask.status := by
  rcases handleLine_cases hline with
    ⟨signer, signature, message, rfl⟩ | ⟨signer, signatureDigest, hmerge⟩
  · rfl
  · have hmutable := (MultisigTask.mergeApproval_cases hmerge).1
    simp [MultisigTask.not_isApprovalMutable hterminal] at hmutable

theorem InFlight.Results.status_eq
    {toUpperCase : Utf16 → Utf16} {inFlight : InFlight}
    {written : MultisigTask}
    {receipts : List (Utf16 × MultisigOnChainReceipt)}
    (hresults : inFlight.Results toUpperCase written receipts)
    (hterminal : status.Terminal) (hkeeps : inFlight.Keeps status) :
    written.status = status := by
  cases hresults with
  | approves hmerge =>
      have hmutable := (MultisigTask.mergeApproval_cases hmerge).1
      rw [← hkeeps] at hterminal
      simp [MultisigTask.not_isApprovalMutable hterminal] at hmutable
  | rejects => exact hkeeps.2.symm
  | imports hline =>
      rw [← hkeeps] at hterminal ⊢
      exact OfflineImport.handleLine_status hterminal hline
  | fails | submits => exact hkeeps.elim

/-- A call that holds a task in a terminal status leaves it there. -/
theorem InFlight.Moves.keeps
    {toUpperCase : Utf16 → Utf16} {inFlight : InFlight} {turn : Turn}
    (hmoves : inFlight.Moves toUpperCase value turn)
    (hterminal : status.Terminal) (hkeeps : inFlight.Keeps status) :
    turn.Keeps status := by
  cases hmoves with
  | throws _ _ htasks => exact (WorkbenchState.throws_idle _ htasks).keeps
  | handles hline hlater htasks hprocessing =>
      rw [← hkeeps] at hterminal ⊢
      apply WorkbenchState.awaits_keeps
      rw [InFlight.Keeps, hlater]
      exact OfflineImport.handleLine_status hterminal hline
  | writes hresults hends =>
      refine ⟨?_, fun later hnext => absurd hnext (hends.ends later),
        hends.submitted⟩
      intro task htask
      rw [hends.writes, List.mem_singleton] at htask
      exact htask ▸ hresults.status_eq hterminal hkeeps

/-- The two checks the store lacks: a rejected task is not submitted and a
confirmed one is not rejected. -/
def Call.RespectsTerminal (value : WorkbenchState) : Call → Prop
  | .submitTaskOnChain taskId =>
      value.processing = false → ∀ task ∈ value.findTask taskId,
        task.isQuorumReached = true → task.status ≠ .rejected
  | .rejectTask taskId _ =>
      value.processing = false → ∀ task ∈ value.findTask taskId,
        task.status ≠ .confirmed
  | _ => True

instance (value : WorkbenchState) :
    (call : Call) → Decidable (call.RespectsTerminal value)
  | .submitTaskOnChain taskId =>
      inferInstanceAs (Decidable (value.processing = false →
        ∀ task ∈ value.findTask taskId,
          task.isQuorumReached = true → task.status ≠ .rejected))
  | .rejectTask taskId _ =>
      inferInstanceAs (Decidable (value.processing = false →
        ∀ task ∈ value.findTask taskId, task.status ≠ .confirmed))
  | .approveTask _ _ | .importOfflineSignatures _ _
  | .clearImportProgress => .isTrue trivial

theorem Call.start_keeps
    {call : Call} {taskId : Utf16} {held : MultisigTask} (clock : Clock)
    (hcall : call.taskId = some taskId)
    (hfind : value.findTask taskId = some held)
    (hterminal : held.status.Terminal)
    (hrespects : call.RespectsTerminal value) :
    (call.start value clock).Keeps held.status := by
  have hstarts : call.Starts value clock (call.start value clock) :=
    call.start_starts clock
  have hsame : ∀ {called : Utf16} {task : MultisigTask},
      some called = some taskId → value.findTask called = some task →
        task = held := by
    intro called task hcalled htask
    rw [Option.some.inj hcalled, hfind] at htask
    exact (Option.some.inj htask).symm
  generalize call.start value clock = turn at hstarts
  cases hstarts with
  | throws =>
      exact (WorkbenchState.throws_idle _ rfl).keeps
  | approves htask =>
      rw [hsame hcall htask]
      exact WorkbenchState.awaits_keeps _ rfl
  | rejects htask hprocessing =>
      have hstatus := hrespects hprocessing _ htask
      rw [hsame hcall htask] at hstatus ⊢
      exact WorkbenchState.awaits_keeps _
        ⟨rfl, hterminal.resolve_right hstatus⟩
  | imports htask =>
      rw [hsame hcall htask]
      exact WorkbenchState.awaits_keeps _ rfl
  | submits htask hprocessing hquorum hconfirmed =>
      have hstatus := hrespects hprocessing _ htask hquorum
      rw [hsame hcall htask] at hstatus hconfirmed
      exact absurd (hterminal.resolve_left hstatus) hconfirmed
  | clears => simp [Call.taskId] at hcall

/-! ## Decisions -/

def Turn.Decides (value : WorkbenchState) (taskId : Utf16)
    (status : MultisigTaskStatus) (turn : Turn) : Prop :=
  ∃ task receipts, turn.Ends value task receipts ∧ task.id = taskId ∧
    task.status = status

theorem InFlight.Moves.rejects
    {toUpperCase : Utf16 → Utf16} {task : MultisigTask} {signer : Utf16}
    {turn : Turn}
    (hmoves : (InFlight.rejecting task signer).Moves toUpperCase value turn)
    (hreturns : turn.next = .ok none) :
    turn.Decides value task.id .rejected := by
  cases hmoves with
  | throws => simp [WorkbenchState.throws] at hreturns
  | writes hresults hends =>
      cases hresults with
      | rejects => exact ⟨_, _, hends, rfl, rfl⟩

theorem InFlight.Moves.confirms
    {toUpperCase : Utf16 → Utf16} {inFlight : InFlight} {turn : Turn}
    {taskId : Utf16} {receipt : MultisigOnChainReceipt}
    (hmoves : inFlight.Moves toUpperCase value turn)
    (hreceipt : (taskId, receipt) ∈ turn.receipts)
    (hconfirmed : receipt.confirmed = true) :
    turn.Decides value taskId .confirmed := by
  cases hmoves with
  | throws => simp [WorkbenchState.throws] at hreceipt
  | handles => simp [WorkbenchState.awaits] at hreceipt
  | writes hresults hends =>
      rw [hends.receipts_eq] at hreceipt
      cases hresults with
      | approves | rejects | imports | fails => simp at hreceipt
      | submits =>
          obtain ⟨rfl, rfl⟩ :=
            Prod.mk.inj (List.mem_singleton.mp hreceipt)
          exact ⟨_, _, hends, rfl, if_pos hconfirmed⟩

theorem Call.start_receipts (call : Call) (clock : Clock) :
    (call.start value clock).receipts = [] := by
  have hstarts : call.Starts value clock (call.start value clock) :=
    call.start_starts clock
  generalize call.start value clock = turn at hstarts
  cases hstarts with
  | throws | approves | rejects | imports | clears => rfl
  | submits =>
      simp only [WorkbenchState.startSubmission, WorkbenchState.updateTask]
      split <;> rfl

/-! ## Frozen tasks -/

namespace Workbench

def submittedFor (workbench : Workbench) (taskId : Utf16) :
    List MultisigTask :=
  workbench.submitted.filter fun task => task.id = taskId

/-- The task has the status, and so has every copy of it in flight. -/
structure Frozen (status : MultisigTaskStatus) (taskId : Utf16)
    (workbench : Workbench) : Prop where
  tasks : ∀ task ∈ workbench.value.tasks, task.id = taskId →
    task.status = status
  held : ∀ id call inFlight,
    workbench.calls.lookup id = some (call, inFlight) →
      inFlight.held.id = taskId → inFlight.Keeps status

variable {workbench : Workbench} {taskId : Utf16} {turn : Turn}

theorem Frozen.settle_idle
    (hfrozen : workbench.Frozen status taskId) (id : ℕ) (call : Call)
    (hidle : turn.Idle workbench.value) :
    (workbench.settle id call turn).Frozen status taskId ∧
      (workbench.settle id call turn).submittedFor taskId =
        workbench.submittedFor taskId := by
  refine ⟨⟨?_, ?_⟩, ?_⟩
  · intro task htask
    simp only [Workbench.settle, hidle.quiet.2] at htask
    exact hfrozen.tasks task htask
  · intro other otherCall inFlight hlookup
    rcases lookup_settle hlookup with ⟨-, -, hnext⟩ | ⟨-, hold⟩
    · exact absurd hnext (hidle.ends inFlight)
    · exact hfrozen.held other otherCall inFlight hold
  · simp [submittedFor, Workbench.settle, hidle.submitted]

theorem Frozen.settle
    {held : MultisigTask} (hfrozen : workbench.Frozen status taskId)
    (id : ℕ) (call : Call) (hon : turn.On workbench.value held)
    (hkeeps : held.id = taskId → turn.Keeps status) :
    (workbench.settle id call turn).Frozen status taskId ∧
      (workbench.settle id call turn).submittedFor taskId =
        workbench.submittedFor taskId := by
  refine ⟨⟨?_, ?_⟩, ?_⟩
  · intro task htask hid
    rcases hon.tasks with ⟨-, hsame⟩ | ⟨written, hevolves, hone, hwritten⟩
    · simp only [Workbench.settle, hsame] at htask
      exact hfrozen.tasks task htask hid
    · simp only [Workbench.settle, hwritten, WorkbenchState.withTask,
        List.mem_map] at htask
      rcases htask with ⟨item, hitem, rfl⟩
      by_cases hreplaced : item.id = written.id
      · simp only [hreplaced, if_true] at hid ⊢
        have hheld : held.id = taskId := hevolves.id_eq.symm.trans hid
        exact (hkeeps hheld).writes written (by simp [hone])
      · simp only [hreplaced, if_false] at hid ⊢
        exact hfrozen.tasks item hitem hid
  · intro other otherCall inFlight hlookup hid
    rcases lookup_settle hlookup with ⟨-, -, hnext⟩ | ⟨-, hold⟩
    · have hheld : held.id = taskId :=
        (hon.waits inFlight hnext).id_eq.symm.trans hid
      exact (hkeeps hheld).waits inFlight hnext
    · exact hfrozen.held other otherCall inFlight hold hid
  · have hnone : (turn.submitted.filter fun task => task.id = taskId) =
        [] := by
      rw [List.filter_eq_nil_iff]
      intro task htask hid
      have hheld : held.id = taskId :=
        (hon.submitted task htask).1.id_eq.symm.trans (by simpa using hid)
      simp [(hkeeps hheld).submitted] at htask
    simp only [submittedFor, Workbench.settle, List.filter_append, hnone,
      List.append_nil]

/-- The calls run one after another: a call starts when no call is in
flight. -/
def Sequential (workbench : Workbench) : Label → Prop
  | .start _ _ => workbench.calls.keys = []
  | _ => True

def RespectsTerminal (workbench : Workbench) : Label → Prop
  | .start call _ => call.RespectsTerminal workbench.value
  | _ => True

instance (workbench : Workbench) :
    (label : Label) → Decidable (workbench.Sequential label)
  | .start _ _ => inferInstanceAs (Decidable (workbench.calls.keys = []))
  | .resume _ _ | .answer _ _ _ => .isTrue trivial

instance (workbench : Workbench) :
    (label : Label) → Decidable (workbench.RespectsTerminal label)
  | .start call _ =>
      inferInstanceAs (Decidable (call.RespectsTerminal workbench.value))
  | .resume _ _ | .answer _ _ _ => .isTrue trivial

theorem Frozen.step
    {toUpperCase : Utf16 → Utf16} {next : Workbench} {label : Label}
    (hfrozen : workbench.Frozen status taskId)
    (hterminal : status.Terminal) (hmodelled : workbench.Modelled)
    (hrespects : workbench.RespectsTerminal label)
    (hstep : workbench.step toUpperCase label = some next) :
    next.Frozen status taskId ∧
      next.submittedFor taskId = workbench.submittedFor taskId := by
  rcases Workbench.step_cases hstep with
    ⟨call, clock, rfl, rfl⟩ |
      ⟨id, call, inFlight, turn, -, hlookup, hyields, rfl⟩
  · have hcounted :
        ({ workbench with
          nextCall := workbench.nextCall + 1 } : Workbench).Frozen status
            taskId :=
      ⟨hfrozen.tasks, hfrozen.held⟩
    rcases call.start_on clock hmodelled.tasks with
      hidle | ⟨called, held, hcalled, hfind, hon⟩
    · exact hcounted.settle_idle workbench.nextCall call hidle
    · refine hcounted.settle workbench.nextCall call hon ?_
      intro hid
      have hstatus := hfrozen.tasks held
        (WorkbenchState.mem_tasks_of_findTask hfind).1 hid
      rw [← hstatus] at hterminal ⊢
      exact Call.start_keeps clock hcalled hfind hterminal hrespects
  · have hheld := hmodelled.held id call inFlight hlookup
    refine hfrozen.settle id call (hyields.on hheld) ?_
    intro hid
    exact (hyields.moves hheld).keeps hterminal
      (hfrozen.held id call inFlight hlookup hid)

theorem frozen_of_decides
    {id : ℕ} (call : Call)
    (halone : ∀ other waiting,
      workbench.calls.lookup other = some waiting → other = id)
    (hdecides : turn.Decides workbench.value taskId status) :
    (workbench.settle id call turn).Frozen status taskId := by
  rcases hdecides with ⟨written, receipts, hends, hid, hstatus⟩
  constructor
  · intro task htask htaskId
    simp only [Workbench.settle, hends.tasks, WorkbenchState.withTask,
      List.mem_map] at htask
    rcases htask with ⟨item, hitem, rfl⟩
    by_cases hreplaced : item.id = written.id
    · simp only [hreplaced, if_true]
      exact hstatus
    · simp only [hreplaced, if_false] at htaskId
      exact absurd (htaskId.trans hid.symm) hreplaced
  · intro other otherCall inFlight hlookup
    exact absurd (lookup_settle_alone halone hlookup).2.2
      (hends.ends inFlight)

theorem mem_finished_settle
    {id : ℕ} {call other : Call}
    (hmem : (other, .ok ()) ∈ (workbench.settle id call turn).finished) :
    (other, .ok ()) ∈ workbench.finished ∨
      (other = call ∧ turn.next = .ok none) := by
  simp only [Workbench.settle] at hmem
  split at hmem
  next => exact Or.inl hmem
  next hnext =>
    rcases List.mem_append.mp hmem with hold | hnew
    · exact Or.inl hold
    · simp only [List.mem_singleton, Prod.mk.injEq, and_true] at hnew
      exact Or.inr ⟨hnew, hnext⟩
  next =>
    rcases List.mem_append.mp hmem with hold | hnew
    · exact Or.inl hold
    · simp at hnew

/-- The invariant: completed rejections and confirmed receipts have frozen
their tasks.  A rejection in flight holds the task it was called for. -/
structure Decided (workbench : Workbench) : Prop where
  modelled : workbench.Modelled
  alone : ∀ id other waiting otherWaiting,
    workbench.calls.lookup id = some waiting →
      workbench.calls.lookup other = some otherWaiting → id = other
  rejecting : ∀ id taskId signer inFlight,
    workbench.calls.lookup id = some (.rejectTask taskId signer, inFlight) →
      ∃ task, inFlight = .rejecting task signer ∧ task.id = taskId
  rejected : ∀ taskId signer,
    (.rejectTask taskId signer, .ok ()) ∈ workbench.finished →
      workbench.Frozen .rejected taskId
  confirmed : ∀ taskId receipt, (taskId, receipt) ∈ workbench.receipts →
    receipt.confirmed = true → workbench.Frozen .confirmed taskId

theorem Decided.settle
    {nextCall id : ℕ} {call : Call} (hdecided : workbench.Decided)
    (halone : ∀ other waiting,
      workbench.calls.lookup other = some waiting → other = id)
    (hmodelled :
      ({ workbench with nextCall }.settle id call turn).Modelled)
    (hfrozen : ∀ status taskId, status.Terminal →
      workbench.Frozen status taskId →
        ({ workbench with nextCall }.settle id call turn).Frozen status
          taskId)
    (hwaits : ∀ taskId signer inFlight, call = .rejectTask taskId signer →
      turn.next = .ok (some inFlight) →
        ∃ task, inFlight = .rejecting task signer ∧ task.id = taskId)
    (hrejects : ∀ taskId signer, call = .rejectTask taskId signer →
      turn.next = .ok none → turn.Decides workbench.value taskId .rejected)
    (hconfirms : ∀ taskId receipt, (taskId, receipt) ∈ turn.receipts →
      receipt.confirmed = true →
        turn.Decides workbench.value taskId .confirmed) :
    ({ workbench with nextCall }.settle id call turn).Decided := by
  constructor
  · exact hmodelled
  · intro first second waiting otherWaiting hfirst hsecond
    rw [(lookup_settle_alone halone hfirst).1,
      (lookup_settle_alone halone hsecond).1]
  · intro other taskId signer inFlight hlookup
    obtain ⟨-, hcall, hnext⟩ := lookup_settle_alone halone hlookup
    exact hwaits taskId signer inFlight hcall.symm hnext
  · intro taskId signer hfinished
    rcases mem_finished_settle hfinished with hold | ⟨hcall, hnext⟩
    · exact hfrozen .rejected taskId (Or.inl rfl)
        (hdecided.rejected taskId signer hold)
    · exact frozen_of_decides call halone
        (hrejects taskId signer hcall.symm hnext)
  · intro taskId receipt hreceipt hconfirmed
    rcases List.mem_append.mp hreceipt with hold | hnew
    · exact hfrozen .confirmed taskId (Or.inr rfl)
        (hdecided.confirmed taskId receipt hold hconfirmed)
    · exact frozen_of_decides call halone
        (hconfirms taskId receipt hnew hconfirmed)

theorem rejectTask_next
    {value : WorkbenchState} {clock : Clock} {signer : Utf16}
    {inFlight : Option InFlight}
    (hnext : ((Call.rejectTask taskId signer).start value clock).next =
      .ok inFlight) :
    ∃ task, inFlight = some (.rejecting task signer) ∧ task.id = taskId := by
  have hstarts : (Call.rejectTask taskId signer).Starts value clock
      ((Call.rejectTask taskId signer).start value clock) :=
    Call.start_starts _ clock
  generalize (Call.rejectTask taskId signer).start value clock = turn
    at hstarts hnext
  cases hstarts with
  | throws => simp [WorkbenchState.throws] at hnext
  | rejects hfind hprocessing =>
      simp only [WorkbenchState.awaits, Except.ok.injEq] at hnext
      exact ⟨_, hnext.symm,
        (WorkbenchState.mem_tasks_of_findTask hfind).2⟩

theorem Decided.step
    {toUpperCase : Utf16 → Utf16} {next : Workbench} {label : Label}
    (hdecided : workbench.Decided)
    (hsequential : workbench.Sequential label)
    (hrespects : workbench.RespectsTerminal label)
    (hstep : workbench.step toUpperCase label = some next) :
    next.Decided := by
  have hmodelled := hdecided.modelled.step hstep
  have hfrozen : ∀ status taskId, status.Terminal →
      workbench.Frozen status taskId → next.Frozen status taskId := by
    intro status taskId hterminal hfrozen
    exact (hfrozen.step hterminal hdecided.modelled hrespects hstep).1
  rcases Workbench.step_cases hstep with
    ⟨call, clock, rfl, rfl⟩ |
      ⟨id, call, inFlight, turn, -, hlookup, hyields, rfl⟩
  · refine hdecided.settle ?_ hmodelled hfrozen ?_ ?_ ?_
    · intro other waiting hother
      rw [lookup_eq_none_of_keys hsequential] at hother
      simp at hother
    · rintro taskId signer inFlight rfl hnext
      obtain ⟨task, hwaits, hid⟩ := rejectTask_next hnext
      exact ⟨task, Option.some.inj hwaits, hid⟩
    · rintro taskId signer rfl hnext
      obtain ⟨task, hwaits, -⟩ := rejectTask_next hnext
      simp at hwaits
    · intro taskId receipt hreceipt
      simp [Call.start_receipts] at hreceipt
  · have hheld := hdecided.modelled.held id call inFlight hlookup
    have hmoves := hyields.moves hheld
    refine hdecided.settle ?_ hmodelled hfrozen ?_ ?_ ?_
    · intro other waiting hother
      exact hdecided.alone other id _ _ hother hlookup
    · rintro taskId signer later rfl hnext
      obtain ⟨task, rfl, -⟩ :=
        hdecided.rejecting id taskId signer inFlight hlookup
      cases hmoves with
      | throws => simp [WorkbenchState.throws] at hnext
      | writes hresults hends => exact absurd hnext (hends.ends later)
    · rintro taskId signer rfl hnext
      obtain ⟨task, rfl, rfl⟩ :=
        hdecided.rejecting id taskId signer inFlight hlookup
      exact hmoves.rejects hnext
    · intro taskId receipt hreceipt hconfirmed
      exact hmoves.confirms hreceipt hconfirmed

theorem create_decided
    {seedTasks : List MultisigTask} {start : Workbench}
    (hcreate : create seedTasks = .ok start) :
    start.Decided := by
  have hmodelled := create_modelled hcreate
  unfold create at hcreate
  split at hcreate
  next => simp at hcreate
  next =>
    rw [← Except.ok.inj hcreate] at hmodelled ⊢
    exact ⟨hmodelled, by simp, by simp, by simp, by simp⟩

end Workbench

/-- Decisions are final: after a completed rejection the submitter is not
called for the task, and after a confirmed receipt neither is that, nor does
the status change. -/
def DecisionsFinal (toUpperCase : Utf16 → Utf16) (start : Workbench)
    (labels : List Label) : Prop :=
  ∀ front middle back before after taskId,
    labels = front ++ (middle ++ back) →
      exec (Workbench.step toUpperCase) start front = some before →
        exec (Workbench.step toUpperCase) before middle = some after →
          ((∃ signer, (.rejectTask taskId signer, .ok ()) ∈
              before.finished) →
            after.submittedFor taskId = before.submittedFor taskId) ∧
          ((∃ receipt, (taskId, receipt) ∈ before.receipts ∧
              receipt.confirmed = true) →
            (∀ task ∈ after.value.tasks, task.id = taskId →
              task.status = .confirmed) ∧
            after.submittedFor taskId = before.submittedFor taskId)

namespace Workbench

theorem Frozen.run
    {toUpperCase : Utf16 → Utf16} {after : Workbench} {labels : List Label}
    (hfrozen : workbench.Frozen status taskId)
    (hterminal : status.Terminal) (hmodelled : workbench.Modelled)
    (hrespects :
      Guarded (Workbench.step toUpperCase) RespectsTerminal workbench labels)
    (hrun : exec (Workbench.step toUpperCase) workbench labels =
      some after) :
    after.Frozen status taskId ∧
      after.submittedFor taskId = workbench.submittedFor taskId := by
  have hkept := invariant_of_guarded
    (fun later : Workbench => later.Modelled ∧ later.Frozen status taskId ∧
      later.submittedFor taskId = workbench.submittedFor taskId) ?_
    ⟨hmodelled, hfrozen, rfl⟩ hrespects hrun
  · exact hkept.2
  · intro later label next hlater hlabel hstep
    rcases hlater with ⟨hmodelled, hfrozen, hsame⟩
    obtain ⟨hnext, hnextSame⟩ := hfrozen.step hterminal hmodelled hlabel hstep
    exact ⟨hmodelled.step hstep, hnext, hnextSame.trans hsame⟩

/-- One call after another, decisions are final when no rejected task with a
quorum is submitted and no confirmed task is rejected. -/
theorem decisionsFinal_of_respectsTerminal
    {toUpperCase : Utf16 → Utf16} {seedTasks : List MultisigTask}
    {start : Workbench} {labels : List Label}
    (hcreate : create seedTasks = .ok start)
    (hsequential :
      Guarded (Workbench.step toUpperCase) Sequential start labels)
    (hrespects :
      Guarded (Workbench.step toUpperCase) RespectsTerminal start labels) :
    DecisionsFinal toUpperCase start labels := by
  intro front middle back before after taskId hlabels hfront hmiddle
  subst hlabels
  have hdecided : before.Decided :=
    invariant_of_guarded Decided
      (fun _ _ _ hdecided hguard hstep =>
        hdecided.step hguard.1 hguard.2 hstep)
      (create_decided hcreate)
      ((hsequential.and hrespects).split hfront).1 hfront
  have hguard := ((hrespects.split hfront).2.split hmiddle).1
  constructor
  · rintro ⟨signer, hfinished⟩
    have hfrozen := hdecided.rejected taskId signer hfinished
    exact (hfrozen.run (Or.inl rfl) hdecided.modelled hguard hmiddle).2
  · rintro ⟨receipt, hreceipt, hconfirmed⟩
    have hfrozen := hdecided.confirmed taskId receipt hreceipt hconfirmed
    obtain ⟨hafter, hsame⟩ :=
      hfrozen.run (Or.inr rfl) hdecided.modelled hguard hmiddle
    exact ⟨hafter.tasks, hsame⟩

end Workbench

/-- One task is rejected and another one confirmed; then both are submitted
again, and the last signer of the confirmed one approves. -/
def decidedLabels : List Label :=
  [.start (.rejectTask "ms-2" "bob") noonClock, .resume 0 noonClock,
    .start (.submitTaskOnChain "ms-1") noonClock,
    .answer 1 (.receipt ⟨"0xFEED", 7, true, "链上确认成功"⟩) noonClock,
    .start (.submitTaskOnChain "ms-2") noonClock,
    .start (.submitTaskOnChain "ms-1") noonClock,
    .start (.approveTask "ms-1" "carol") noonClock, .resume 4 noonClock]

theorem decisionsFinal_decidedLabels :
    ∃ start final,
      Workbench.create [readyTask, { payrollTask with id := "ms-2" }] =
          .ok start ∧
        exec (Workbench.step asciiToUpperCase) start decidedLabels =
          some final ∧
        final.finished.length = 5 ∧ final.receipts.length = 1 ∧
        DecisionsFinal asciiToUpperCase start decidedLabels := by
  have hguarded :
      ∃ start final,
        Workbench.create [readyTask, { payrollTask with id := "ms-2" }] =
            .ok start ∧
          exec (Workbench.step asciiToUpperCase) start decidedLabels =
            some final ∧
          final.finished.length = 5 ∧ final.receipts.length = 1 ∧
          Guarded (Workbench.step asciiToUpperCase) Workbench.Sequential start
            decidedLabels ∧
          Guarded (Workbench.step asciiToUpperCase)
            Workbench.RespectsTerminal start decidedLabels :=
    ⟨_, _, rfl, rfl, rfl, rfl, by decide, by decide⟩
  rcases hguarded with ⟨start, final, hcreate, hrun, hfinished, hreceipts,
    hsequential, hrespects⟩
  exact ⟨start, final, hcreate, hrun, hfinished, hreceipts,
    Workbench.decisionsFinal_of_respectsTerminal hcreate hsequential
      hrespects⟩

def submitRejectedLabels : List Label :=
  [.start (.rejectTask "ms-1" "carol") noonClock, .resume 0 noonClock,
    .start (.submitTaskOnChain "ms-1") noonClock]

def rejectConfirmedLabels : List Label :=
  [.start (.submitTaskOnChain "ms-1") noonClock,
    .answer 0 (.receipt ⟨"0xFEED", 7, true, "链上确认成功"⟩) noonClock,
    .start (.rejectTask "ms-1" "carol") noonClock, .resume 1 noonClock]

theorem not_decisionsFinal :
    ∃ start,
      Workbench.create [readyTask] = .ok start ∧
        Guarded (Workbench.step asciiToUpperCase) Workbench.Sequential start
          submitRejectedLabels ∧
        ¬ DecisionsFinal asciiToUpperCase start submitRejectedLabels ∧
        Guarded (Workbench.step asciiToUpperCase) Workbench.Sequential start
          rejectConfirmedLabels ∧
        ¬ DecisionsFinal asciiToUpperCase start rejectConfirmedLabels := by
  refine ⟨_, rfl, by decide, ?_, by decide, ?_⟩
  · intro hfinal
    have hsame := (hfinal (submitRejectedLabels.take 2)
      (submitRejectedLabels.drop 2) [] _ _ "ms-1" rfl rfl rfl).1
      ⟨"carol", List.mem_singleton.mpr rfl⟩
    exact absurd (congrArg List.length hsame) (by decide)
  · intro hfinal
    have hstays := (hfinal (rejectConfirmedLabels.take 2)
      (rejectConfirmedLabels.drop 2) [] _ _ "ms-1" rfl rfl rfl).2
      ⟨_, List.mem_singleton.mpr rfl, rfl⟩
    exact absurd (hstays.1 _ List.mem_cons_self rfl) (by decide)

end SoulonWallet.Multisig
