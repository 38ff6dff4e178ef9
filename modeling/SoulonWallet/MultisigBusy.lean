import SoulonWallet.MultisigImport

/-!
# Calls that leave the workbench busy

`approveTask` and `rejectTask` clear `processing` on every path.  An import has
no `catch`, so an exception in its loop or in its last write leaves the flag
set; `submitTaskOnChain` makes its first write before its `try`.  While the
flag is set every later approval, rejection and submission is refused.
-/

namespace SoulonWallet.Multisig

open LabelledRun SignerModel

/-- What `submitTaskOnChain` checks before its first write. -/
def WorkbenchState.Submits (value : WorkbenchState) (task : MultisigTask) :
    Prop :=
  value.processing = false ∧ task.isQuorumReached = true ∧
    task.status ≠ .confirmed

/-- The calls that end with an exception and leave `processing` set. -/
def Call.Sticks (toUpperCase : Utf16 → Utf16) (value : WorkbenchState) :
    Call → Prop
  | .importOfflineSignatures taskId payload =>
      payloadLines payload ≠ [] ∧
        ∃ task, value.findTask taskId = some task ∧
          ((task.isApprovalMutable = false ∧
              ∃ signer ∈ task.pendingSigners,
                task.SignedIn toUpperCase payload signer) ∨
            ¬ (task.approveAll
              (task.newlySigned toUpperCase payload)).WellFormed)
  | .submitTaskOnChain taskId =>
      ∃ task, value.findTask taskId = some task ∧ value.Submits task ∧
        ¬ task.WellFormed
  | _ => False

namespace WorkbenchState

variable {value : WorkbenchState} {task : MultisigTask}

/-- A submission is refused by one of its checks, or makes its first
write. -/
theorem submitTaskOnChain_cases
    (value : WorkbenchState) (taskId : Utf16) (clock : Clock) :
    (∃ task, value.findTask taskId = some task ∧ value.Submits task ∧
        value.submitTaskOnChain taskId clock =
          value.startSubmission task clock) ∨
      ((∀ task, value.findTask taskId = some task → ¬ value.Submits task) ∧
        ∃ message,
          value.submitTaskOnChain taskId clock = value.throws message) := by
  unfold submitTaskOnChain
  cases hfind : value.findTask taskId with
  | none => exact Or.inr ⟨by simp, _, rfl⟩
  | some task =>
      have hrefused : ¬ value.Submits task →
          ∀ other, some task = some other → ¬ value.Submits other := by
        rintro hnot other ⟨⟩
        exact hnot
      dsimp only
      split
      next hprocessing =>
        exact Or.inr ⟨hrefused fun hall => by simp [hall.1] at hprocessing,
          _, rfl⟩
      next hprocessing =>
        split
        next hquorum =>
          exact Or.inr ⟨hrefused fun hall => hquorum hall.2.1, _, rfl⟩
        next hquorum =>
          split
          next hconfirmed =>
            exact Or.inr ⟨hrefused fun hall => hall.2.2 hconfirmed, _, rfl⟩
          next hconfirmed =>
            exact Or.inl ⟨task, rfl, ⟨by simpa using hprocessing,
              not_not.mp hquorum, hconfirmed⟩, rfl⟩

theorem updateTask_idle
    {returned : WorkbenchState → Turn} {thrown : Utf16 → Turn}
    (hreturned : ∀ value, (returned value).value.processing = false)
    (hthrown : ∀ message, (thrown message).value.processing = false) :
    (value.updateTask task returned thrown).value.processing = false := by
  unfold updateTask
  cases task.assertTaskModel with
  | ok checked => exact hreturned _
  | error message => exact hthrown message

theorem finishApproval_idle
    (value : WorkbenchState) (task : MultisigTask) (signer : Utf16)
    (clock : Clock) :
    (value.finishApproval task signer clock).value.processing = false := by
  unfold finishApproval
  cases task.mergeApproval signer "在线审批" none clock with
  | error message => rfl
  | ok updated => exact updateTask_idle (fun _ => rfl) (fun _ => rfl)

theorem finishRejection_idle
    (value : WorkbenchState) (task : MultisigTask) (signer : Utf16)
    (clock : Clock) :
    (value.finishRejection task signer clock).value.processing = false :=
  updateTask_idle (fun _ => rfl) (fun _ => rfl)

theorem failSubmission_idle
    (hmodel : task.WellFormed) (value : WorkbenchState)
    (updatedAt : DateTime) (message : Utf16) :
    (value.failSubmission task updatedAt message).value.processing =
      false := by
  unfold failSubmission
  rw [updateTask_eq (by exact hmodel)]
  rfl

theorem finishSubmission_idle
    (hmodel : task.WellFormed) (value : WorkbenchState)
    (startedAt : DateTime) (receipt : MultisigOnChainReceipt)
    (clock : Clock) :
    (value.finishSubmission task startedAt receipt clock).value.processing =
      false := by
  unfold finishSubmission
  dsimp only
  rw [updateTask_eq (by exact hmodel)]
  rfl

end WorkbenchState

/-- The last turn of a call other than an import clears the flag, as long as
the task of a submission is well formed. -/
theorem InFlight.Yields.idle
    {toUpperCase : Utf16 → Utf16} {value : WorkbenchState}
    {inFlight : InFlight} {turn : Turn}
    (hyields : inFlight.Yields toUpperCase value turn)
    (hother : ∀ offline, inFlight ≠ .importing offline)
    (hmodel : ∀ task startedAt, inFlight = .submitting task startedAt →
      task.WellFormed) :
    turn.value.processing = false := by
  rcases hyields with ⟨clock, hresume⟩ | ⟨outcome, clock, hanswer⟩
  · cases inFlight with
    | approving task signer =>
        obtain rfl := Option.some.inj hresume
        exact value.finishApproval_idle task signer clock
    | rejecting task signer =>
        obtain rfl := Option.some.inj hresume
        exact value.finishRejection_idle task signer clock
    | importing offline => exact absurd rfl (hother offline)
    | submitting task startedAt => cases hresume
  · cases inFlight with
    | submitting task startedAt =>
        have htask := hmodel task startedAt rfl
        cases outcome with
        | receipt receipt =>
            obtain rfl := Option.some.inj hanswer
            exact WorkbenchState.finishSubmission_idle htask value startedAt
              receipt clock
        | apiClientException message | formatException message
        | otherError =>
            obtain rfl := Option.some.inj hanswer
            exact WorkbenchState.failSubmission_idle htask value _ _
    | approving task signer | rejecting task signer | importing offline =>
        cases hanswer

namespace Workbench

variable {toUpperCase : Utf16 → Utf16} {workbench final : Workbench}
variable {call : Call}

variable {id : ℕ} {turn : Turn} {labels : List Label}

theorem idle_of_last
    (halone : ∀ label ∈ labels, label.call = some id)
    (hrun : exec (step toUpperCase) (workbench.settle id call turn) labels =
      some final)
    (hlast : ∀ inFlight, turn.next ≠ .ok (some inFlight))
    (hidle : turn.value.processing = false) :
    final.value.processing = false := by
  rw [eq_settle_of_ends halone hrun hlast]
  exact hidle

theorem idle_of_waiting
    {inFlight : InFlight} (hnext : turn.next = .ok (some inFlight))
    (hother : ∀ offline, inFlight ≠ .importing offline)
    (hmodel : ∀ task startedAt, inFlight = .submitting task startedAt →
      task.WellFormed)
    (halone : ∀ label ∈ labels, label.call = some id)
    (hrun : exec (step toUpperCase) (workbench.settle id call turn) labels =
      some final)
    (hended : final.calls.lookup id = none) :
    final.value.processing = false := by
  have hlookup := lookup_settle_self workbench id call turn
  rw [hnext] at hlookup
  obtain ⟨last, rest, hyields, hrest, hexec⟩ :=
    exists_turn_of_alone halone hrun hlookup hended
  exact idle_of_last hrest hexec (hyields.last hother)
    (hyields.idle hother hmodel)

/-- An approval and a rejection always clear the flag. -/
theorem RunsAlone.idle_of_decision
    (himport : ∀ taskId payload,
      call ≠ .importOfflineSignatures taskId payload)
    (hsubmit : ∀ taskId, call ≠ .submitTaskOnChain taskId)
    (hidle : workbench.value.processing = false)
    (hrun : RunsAlone toUpperCase workbench call final) :
    final.value.processing = false := by
  obtain ⟨clock, labels, halone, hexec, hended⟩ := hrun.exists_start
  have hstarts : call.Starts workbench.value clock
      (call.start workbench.value clock) :=
    call.start_starts clock
  generalize call.start workbench.value clock = turn at hstarts hexec
  cases hstarts with
  | throws _ message =>
      exact idle_of_last halone hexec (WorkbenchState.throws_last _ message)
        hidle
  | approves | rejects =>
      exact idle_of_waiting rfl (by simp) (by simp) halone hexec hended
  | imports => exact absurd rfl (himport _ _)
  | submits => exact absurd rfl (hsubmit _)
  | clears =>
      exact idle_of_last halone hexec (WorkbenchState.returns_last _) hidle

/-- A submission clears the flag unless its first write is refused. -/
theorem RunsAlone.submission_idle_iff
    {taskId : Utf16}
    (hidle : workbench.value.processing = false)
    (hrun : RunsAlone toUpperCase workbench (.submitTaskOnChain taskId)
      final) :
    final.value.processing = false ↔
      ¬ (Call.submitTaskOnChain taskId).Sticks toUpperCase
        workbench.value := by
  obtain ⟨clock, labels, halone, hexec, hended⟩ := hrun.exists_start
  rw [Call.start] at hexec
  rcases workbench.value.submitTaskOnChain_cases taskId clock with
    ⟨task, hfind, hsubmits, hstart⟩ | ⟨hrefused, message, hstart⟩
  · have hsticks : (Call.submitTaskOnChain taskId).Sticks toUpperCase
        workbench.value ↔ ¬ task.WellFormed := by
      simp [Call.Sticks, hfind, hsubmits]
    rw [hsticks, not_not]
    rw [hstart, WorkbenchState.startSubmission] at hexec
    by_cases hmodel : task.WellFormed
    · refine iff_of_true ?_ hmodel
      rw [WorkbenchState.updateTask_eq (by exact hmodel)] at hexec
      refine idle_of_waiting rfl (by simp) ?_ halone hexec hended
      rintro other startedAt ⟨⟩
      exact hmodel
    · refine iff_of_false ?_ hmodel
      have hbad : ¬ (task.inSubmission clock.first).WellFormed := hmodel
      obtain ⟨message, hthrows⟩ := WorkbenchState.updateTask_throws hbad
        workbench.value.busy
        (fun value =>
          { value.awaits (.submitting task clock.first) with
            submitted := [task.inSubmission clock.first] })
        workbench.value.busy.throws
      rw [hthrows] at hexec
      rw [eq_settle_of_ends halone hexec
        (WorkbenchState.throws_last workbench.value.busy message)]
      exact Bool.noConfusion
  · rw [hstart] at hexec
    refine iff_of_true (idle_of_last halone hexec
      (WorkbenchState.throws_last _ message) hidle) ?_
    rintro ⟨task, hfind, hsubmits, -⟩
    exact hrefused task hfind hsubmits

/-- An import leaves the flag set when a signature comes too late, or when the
task that it hands to `updateTask` is refused. -/
theorem RunsAlone.import_idle_iff
    {taskId payload : Utf16}
    (hidle : workbench.value.processing = false)
    (hrun : RunsAlone toUpperCase workbench
      (.importOfflineSignatures taskId payload) final) :
    final.value.processing = false ↔
      ¬ (Call.importOfflineSignatures taskId payload).Sticks toUpperCase
        workbench.value := by
  by_cases hlines : payloadLines payload = []
  · rw [hrun.eq_of_blank hlines]
    refine iff_of_true hidle ?_
    rintro ⟨hne, -⟩
    exact hne hlines
  cases hfind : workbench.value.findTask taskId with
  | none =>
      obtain ⟨clock, labels, halone, hexec, hended⟩ := hrun.exists_start
      refine iff_of_true ?_ ?_
      · simp only [Call.start, WorkbenchState.importOfflineSignatures,
          hfind] at hexec
        exact idle_of_last halone hexec (WorkbenchState.throws_last _ _) hidle
      · rintro ⟨-, task, htask, -⟩
        rw [hfind] at htask
        cases htask
  | some task =>
      have hsome : task.newlySigned toUpperCase payload ≠ [] ↔
          ∃ signer ∈ task.pendingSigners,
            task.SignedIn toUpperCase payload signer := by
        rw [ne_eq, List.eq_nil_iff_forall_not_mem]
        simp only [MultisigTask.mem_newlySigned_iff]
        push Not
        rfl
      cases hrun.importEnds hfind hlines with
      | throws message hrefused htasks hprocessing =>
          refine iff_of_false ?_ (not_not.mpr ⟨hlines, task, hfind, ?_⟩)
          · rw [hprocessing]
            exact Bool.noConfusion
          · rcases hrefused with ⟨hfixed, hsigners⟩ | hmodel
            · exact Or.inl ⟨hfixed, hsome.mp hsigners⟩
            · exact Or.inr hmodel
      | writes written entries happroves hmodel _ _ _ hprocessing =>
          refine iff_of_true hprocessing ?_
          rintro ⟨-, other, hother, hsticks⟩
          obtain rfl := Option.some.inj (hfind.symm.trans hother)
          rcases hsticks with ⟨hfixed, hsigned⟩ | hbad
          · have hmutable := happroves.mutable (hsome.mpr hsigned)
            rw [hmutable] at hfixed
            cases hfixed
          · exact hbad hmodel

theorem RunsAlone.idle_iff
    (hidle : workbench.value.processing = false)
    (hrun : RunsAlone toUpperCase workbench call final) :
    final.value.processing = false ↔
      ¬ call.Sticks toUpperCase workbench.value := by
  cases call with
  | importOfflineSignatures taskId payload => exact hrun.import_idle_iff hidle
  | submitTaskOnChain taskId => exact hrun.submission_idle_iff hidle
  | approveTask taskId signer | rejectTask taskId signer
  | clearImportProgress =>
      exact iff_of_true (hrun.idle_of_decision (by simp) (by simp) hidle)
        not_false

/-- Every call that runs alone on an idle workbench ends, and leaves it idle
exactly if it does not stick. -/
theorem processing_cleared_iff
    (toUpperCase : Utf16 → Utf16) {workbench : Workbench}
    (hidle : workbench.value.processing = false) (call : Call) :
    (∃ final, RunsAlone toUpperCase workbench call final) ∧
      ∀ final, RunsAlone toUpperCase workbench call final →
        (final.value.processing = false ↔
          ¬ call.Sticks toUpperCase workbench.value) :=
  ⟨exists_runsAlone toUpperCase workbench call noonClock,
    fun _ hrun => hrun.idle_iff hidle⟩

/-- In a reachable workbench only an import sticks, on a task that does not
take approvals any more. -/
theorem Modelled.sticks_iff
    (hmodelled : workbench.Modelled) :
    call.Sticks toUpperCase workbench.value ↔
      ∃ taskId payload task,
        call = .importOfflineSignatures taskId payload ∧
          workbench.value.findTask taskId = some task ∧
          task.isApprovalMutable = false ∧
          ∃ signer ∈ task.pendingSigners,
            task.SignedIn toUpperCase payload signer := by
  have hmodel : ∀ taskId task,
      workbench.value.findTask taskId = some task → task.WellFormed := by
    intro taskId task hfind
    exact hmodelled.tasks task (WorkbenchState.mem_tasks_of_findTask hfind).1
  constructor
  · intro hsticks
    cases call with
    | importOfflineSignatures taskId payload =>
        obtain ⟨-, task, hfind, hfixed | hbad⟩ := hsticks
        · exact ⟨taskId, payload, task, rfl, hfind, hfixed⟩
        · exact absurd ((hmodel taskId task hfind).approveAll_newlySigned
            toUpperCase payload) hbad
    | submitTaskOnChain taskId =>
        obtain ⟨task, hfind, -, hbad⟩ := hsticks
        exact absurd (hmodel taskId task hfind) hbad
    | approveTask | rejectTask | clearImportProgress => exact hsticks.elim
  · rintro ⟨taskId, payload, task, rfl, hfind, hfixed, signer, hpending,
      line, hline, hsigned⟩
    exact ⟨List.ne_nil_of_mem hline, task, hfind,
      Or.inl ⟨hfixed, signer, hpending, line, hline, hsigned⟩⟩

end Workbench

theorem processing_cleared_after_approval :
    ∃ start final,
      Workbench.create [payrollTask] = .ok start ∧
        Workbench.RunsAlone asciiToUpperCase start
          (.approveTask "ms-1" "alice") final ∧
        final.value.processing = false := by
  have hcreate : ∃ start, Workbench.create [payrollTask] = .ok start ∧
      start.value.processing = false :=
    ⟨_, rfl, rfl⟩
  obtain ⟨start, hstart, hidle⟩ := hcreate
  obtain ⟨⟨final, hrun⟩, hall⟩ := Workbench.processing_cleared_iff
    asciiToUpperCase hidle (.approveTask "ms-1" "alice")
  exact ⟨start, final, hstart, hrun, (hall final hrun).mpr not_false⟩

/-- A good signature is imported after the task was rejected. -/
theorem processing_stuck_after_rejection :
    ∃ start rejected final,
      Workbench.create [payrollTask] = .ok start ∧
        exec (Workbench.step asciiToUpperCase) start
          [.start (.rejectTask "ms-1" "carol") noonClock,
            .resume 0 noonClock] = some rejected ∧
        rejected.value.processing = false ∧
        Workbench.RunsAlone asciiToUpperCase rejected
          (.importOfflineSignatures "ms-1" "alice:0x12345678:0xab12")
          final ∧
        final.value.processing = true := by
  refine ⟨_, _, _, rfl, rfl, rfl, ⟨noonClock, [.resume 1 noonClock], ?_, rfl,
    rfl⟩, rfl⟩
  intro label hlabel
  rw [List.mem_singleton.mp hlabel]
  rfl

end SoulonWallet.Multisig
