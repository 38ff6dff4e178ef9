import Mathlib.Tactic
import SoulonWallet.LabelledRun
import SoulonWallet.MultisigTurns

/-!
# The task model under any interleaving

A call writes back the copy of the task it took when it started, however old
the copy is by then.  Still every write is a later version of a well-formed
task: the invariant covers the stored tasks and the copy of every call in
flight.  `Turn.On` says once what a turn on a well-formed copy can do; the
other results about the workbench start from it.
-/

namespace SoulonWallet.Multisig

open LabelledRun

def Turn.Writes (value : WorkbenchState) (held : MultisigTask)
    (turn : Turn) : Prop :=
  ∃ task, held.Evolves task ∧ turn.writes = [task] ∧
    turn.value.tasks = (value.withTask task).tasks

/-- What a turn on the copy `held` can do. -/
structure Turn.On (value : WorkbenchState) (held : MultisigTask)
    (turn : Turn) : Prop where
  tasks : turn.Quiet value ∨ turn.Writes value held
  waits : ∀ inFlight, turn.next = .ok (some inFlight) →
    held.Evolves inFlight.held
  waits_writes : ∀ inFlight, turn.next = .ok (some inFlight) →
    ∀ task ∈ turn.writes, task.status = .submitting ∧
      task.approvedSigners ⊆ inFlight.held.approvedSigners
  submitted : ∀ task ∈ turn.submitted,
    held.Evolves task ∧ task.isQuorumReached = true

variable {value : WorkbenchState}

theorem Turn.Idle.on
    {turn : Turn} (hidle : turn.Idle value) (held : MultisigTask) :
    turn.On value held where
  tasks := Or.inl hidle.quiet
  waits := fun inFlight hnext => absurd hnext (hidle.ends inFlight)
  waits_writes := fun inFlight hnext => absurd hnext (hidle.ends inFlight)
  submitted := by simp [hidle.submitted]

theorem Turn.Ends.on
    {turn : Turn} {held written : MultisigTask}
    {receipts : List (Utf16 × MultisigOnChainReceipt)}
    (hends : turn.Ends value written receipts)
    (hevolves : held.Evolves written) :
    turn.On value held where
  tasks := Or.inr ⟨written, hevolves, hends.writes, hends.tasks⟩
  waits := fun inFlight hnext => absurd hnext (hends.ends inFlight)
  waits_writes := fun inFlight hnext => absurd hnext (hends.ends inFlight)
  submitted := by simp [hends.submitted]

theorem WorkbenchState.awaits_on
    {next : WorkbenchState} {held : MultisigTask} {inFlight : InFlight}
    (htasks : next.tasks = value.tasks)
    (hheld : held.Evolves inFlight.held) :
    (next.awaits inFlight).On value held where
  tasks := Or.inl ⟨rfl, htasks⟩
  waits := by
    intro other hnext
    simp only [awaits, Except.ok.injEq, Option.some.injEq] at hnext
    exact hnext ▸ hheld
  waits_writes := by simp [awaits]
  submitted := by simp [awaits]

theorem inSubmission_evolves (task : MultisigTask) (startedAt : DateTime) :
    task.Evolves (task.inSubmission startedAt) :=
  .of_fields rfl rfl rfl rfl rfl rfl rfl

theorem WorkbenchState.startSubmission_on
    {held : MultisigTask} (clock : Clock) (hmodel : held.WellFormed)
    (hquorum : held.isQuorumReached = true) :
    (value.startSubmission held clock).On value held := by
  have hevolves := inSubmission_evolves held clock.first
  rw [startSubmission, updateTask_eq (hevolves.wellFormed hmodel)]
  constructor
  · exact Or.inr ⟨_, hevolves, rfl, rfl⟩
  · intro inFlight hnext
    simp only [awaits, Except.ok.injEq, Option.some.injEq] at hnext
    exact hnext ▸ MultisigTask.Evolves.refl held
  · intro inFlight hnext task htask
    simp only [awaits, Except.ok.injEq, Option.some.injEq] at hnext
    simp only [awaits, List.mem_singleton] at htask
    subst hnext htask
    exact ⟨rfl, List.Subset.refl _⟩
  · intro task htask
    rw [List.mem_singleton.mp htask]
    exact ⟨hevolves, hquorum⟩

theorem Call.start_on
    (call : Call) (clock : Clock)
    (hmodel : ∀ task ∈ value.tasks, task.WellFormed) :
    (call.start value clock).Idle value ∨
      ∃ taskId held, call.taskId = some taskId ∧
        value.findTask taskId = some held ∧
        (call.start value clock).On value held := by
  have hstarts : call.Starts value clock (call.start value clock) :=
    call.start_starts clock
  generalize call.start value clock = turn at hstarts
  cases hstarts with
  | throws => exact Or.inl (WorkbenchState.throws_idle _ rfl)
  | approves hfind | rejects hfind | imports hfind =>
      exact Or.inr ⟨_, _, rfl, hfind, WorkbenchState.awaits_on rfl
        (MultisigTask.Evolves.refl _)⟩
  | submits hfind hprocessing hquorum hstatus =>
      have hheld := hmodel _ (WorkbenchState.mem_tasks_of_findTask hfind).1
      exact Or.inr ⟨_, _, rfl, hfind,
        WorkbenchState.startSubmission_on clock hheld hquorum⟩
  | clears => exact Or.inl (WorkbenchState.returns_idle rfl)

theorem InFlight.Yields.on
    {toUpperCase : Utf16 → Utf16} {inFlight : InFlight} {turn : Turn}
    (hyields : inFlight.Yields toUpperCase value turn)
    (hmodel : inFlight.held.WellFormed) :
    turn.On value inFlight.held := by
  cases hyields.moves hmodel with
  | throws _ _ htasks =>
      exact (WorkbenchState.throws_idle _ htasks).on inFlight.held
  | handles hline hlater htasks hprocessing =>
      refine WorkbenchState.awaits_on htasks ?_
      rw [InFlight.held, InFlight.held, hlater]
      exact OfflineImport.handleLine_evolves hline
  | writes hresults hends => exact hends.on hresults.evolves

namespace Workbench

/-- The invariant: stored tasks, copies in flight and everything handed to
`updateTask` or the submitter are well formed. -/
structure Modelled (workbench : Workbench) : Prop where
  tasks : ∀ task ∈ workbench.value.tasks, task.WellFormed
  held : ∀ id call inFlight,
    workbench.calls.lookup id = some (call, inFlight) →
      inFlight.held.WellFormed
  writes : ∀ task ∈ workbench.writes, task.WellFormed
  submitted : ∀ task ∈ workbench.submitted,
    task.WellFormed ∧ task.isQuorumReached = true

theorem Modelled.settle_idle
    {workbench : Workbench} {turn : Turn} (hmodelled : workbench.Modelled)
    (id : ℕ) (call : Call) (hidle : turn.Idle workbench.value) :
    (workbench.settle id call turn).Modelled := by
  constructor
  · intro task htask
    simp only [settle, hidle.quiet.2] at htask
    exact hmodelled.tasks task htask
  · intro other otherCall inFlight hlookup
    rcases lookup_settle hlookup with ⟨-, -, hnext⟩ | ⟨-, hold⟩
    · exact absurd hnext (hidle.ends inFlight)
    · exact hmodelled.held other otherCall inFlight hold
  · intro task htask
    simp only [settle, hidle.quiet.1, List.append_nil] at htask
    exact hmodelled.writes task htask
  · intro task htask
    simp only [settle, hidle.submitted, List.append_nil] at htask
    exact hmodelled.submitted task htask

theorem Modelled.settle
    {workbench : Workbench} {turn : Turn} {held : MultisigTask}
    (hmodelled : workbench.Modelled) (id : ℕ) (call : Call)
    (hmodel : held.WellFormed) (hon : turn.On workbench.value held) :
    (workbench.settle id call turn).Modelled := by
  constructor
  · intro task htask
    rcases hon.tasks with ⟨-, hsame⟩ | ⟨written, hevolves, -, hwritten⟩
    · simp only [Workbench.settle, hsame] at htask
      exact hmodelled.tasks task htask
    · simp only [Workbench.settle, hwritten, WorkbenchState.withTask,
        List.mem_map] at htask
      rcases htask with ⟨item, hitem, rfl⟩
      split
      · exact hevolves.wellFormed hmodel
      · exact hmodelled.tasks item hitem
  · intro other otherCall inFlight hlookup
    rcases lookup_settle hlookup with ⟨-, -, hnext⟩ | ⟨-, hold⟩
    · exact (hon.waits inFlight hnext).wellFormed hmodel
    · exact hmodelled.held other otherCall inFlight hold
  · intro task htask
    rcases List.mem_append.mp htask with hold | hnew
    · exact hmodelled.writes task hold
    · rcases hon.tasks with ⟨hnone, -⟩ | ⟨written, hevolves, hone, -⟩
      · simp [hnone] at hnew
      · rw [hone, List.mem_singleton] at hnew
        exact hnew ▸ hevolves.wellFormed hmodel
  · intro task htask
    rcases List.mem_append.mp htask with hold | hnew
    · exact hmodelled.submitted task hold
    · obtain ⟨hevolves, hquorum⟩ := hon.submitted task hnew
      exact ⟨hevolves.wellFormed hmodel, hquorum⟩

theorem Modelled.step
    {toUpperCase : Utf16 → Utf16} {workbench next : Workbench}
    {label : Label} (hmodelled : workbench.Modelled)
    (hstep : workbench.step toUpperCase label = some next) :
    next.Modelled := by
  rcases step_cases hstep with
    ⟨call, clock, rfl, rfl⟩ |
      ⟨id, call, inFlight, turn, -, hlookup, hyields, rfl⟩
  · have hcounted :
        ({ workbench with
          nextCall := workbench.nextCall + 1 } : Workbench).Modelled :=
      ⟨hmodelled.tasks, hmodelled.held, hmodelled.writes,
        hmodelled.submitted⟩
    rcases call.start_on clock hmodelled.tasks with
      hidle | ⟨taskId, held, -, hfind, hon⟩
    · exact hcounted.settle_idle workbench.nextCall call hidle
    · have hheld := hmodelled.tasks held
        (WorkbenchState.mem_tasks_of_findTask hfind).1
      exact hcounted.settle workbench.nextCall call hheld hon
  · have hheld := hmodelled.held id call inFlight hlookup
    exact hmodelled.settle id call hheld (hyields.on hheld)

theorem wellFormed_of_forM
    {tasks : List MultisigTask}
    (hchecked : (tasks.forM fun task => task.assertTaskModel) = .ok ()) :
    ∀ task ∈ tasks, task.WellFormed := by
  induction tasks with
  | nil => simp
  | cons first rest ih =>
      cases hfirst : first.assertTaskModel with
      | error message =>
          simp [List.forM, hfirst, bind, Except.bind] at hchecked
      | ok checked =>
          simp only [List.forM, hfirst, bind, Except.bind] at hchecked
          intro task htask
          rcases List.mem_cons.mp htask with rfl | hrest
          · exact MultisigTask.assertTaskModel_eq_ok_iff.mp hfirst
          · exact ih hchecked task hrest

theorem create_modelled
    {seedTasks : List MultisigTask} {start : Workbench}
    (hcreate : create seedTasks = .ok start) :
    start.Modelled := by
  unfold create at hcreate
  split at hcreate
  next => simp at hcreate
  next hchecked =>
    rw [← Except.ok.inj hcreate]
    exact ⟨wellFormed_of_forM hchecked, by simp, by simp, by simp⟩

theorem run_modelled
    {toUpperCase : Utf16 → Utf16} {seedTasks : List MultisigTask}
    {start final : Workbench} {labels : List Label}
    (hcreate : create seedTasks = .ok start)
    (hrun : exec (step toUpperCase) start labels = some final) :
    final.Modelled :=
  invariant_of_step Modelled (fun _ _ _ hmodelled hstep =>
    hmodelled.step hstep) (create_modelled hcreate) hrun

end Workbench

/-- The approved and pending signers split the registered ones, the count is
the number of approvals, and the threshold can be met. -/
structure MultisigTask.SignersSplit (task : MultisigTask) : Prop where
  approved_nodup : task.approvedSigners.Nodup
  pending_nodup : task.pendingSigners.Nodup
  disjoint : ∀ signer ∈ task.approvedSigners,
    signer ∉ task.pendingSigners
  all : ∀ signer, signer ∈ task.allSigners ↔
    signer ∈ task.approvedSigners ∨ signer ∈ task.pendingSigners
  collected : task.collectedSigners = task.approvedSigners.length
  threshold_pos : 0 < task.threshold
  threshold_le : task.threshold ≤ task.totalSigners

theorem MultisigTask.WellFormed.signersSplit
    {task : MultisigTask} (hmodel : task.WellFormed) :
    task.SignersSplit where
  approved_nodup := SignerModel.approved_nodup hmodel
  pending_nodup := SignerModel.pending_nodup hmodel
  disjoint := SignerModel.disjoint hmodel
  all := SignerModel.mem_allSigners_iff hmodel
  collected := (SignerModel.collected_eq hmodel).symm
  threshold_pos := SignerModel.threshold_pos hmodel
  threshold_le := SignerModel.threshold_le hmodel

/-- In every state of every interleaving the tasks keep their model, no check
of `updateTask` has failed, and the submitter was only called with a quorum of
distinct registered signers. -/
theorem Workbench.run_signersSplit
    {toUpperCase : Utf16 → Utf16} {seedTasks : List MultisigTask}
    {start final : Workbench} {labels : List Label}
    (hcreate : Workbench.create seedTasks = .ok start)
    (hrun : exec (Workbench.step toUpperCase) start labels = some final) :
    (∀ task ∈ final.value.tasks, task.SignersSplit) ∧
      (∀ task ∈ final.writes, task.assertTaskModel = .ok ()) ∧
      ∀ task ∈ final.submitted,
        task.threshold ≤ (task.approvedSigners.toFinset.filter
          fun signer => signer ∈ task.allSigners).card := by
  have hmodelled := Workbench.run_modelled hcreate hrun
  refine ⟨?_, ?_, ?_⟩
  · intro task htask
    exact (hmodelled.tasks task htask).signersSplit
  · intro task htask
    exact MultisigTask.assertTaskModel_eq_ok_iff.mpr
      (hmodelled.writes task htask)
  · intro task htask
    obtain ⟨hmodel, hquorum⟩ := hmodelled.submitted task htask
    have hreached : task.threshold ≤ task.approvedSigners.length := by
      simp only [MultisigTask.isQuorumReached, Bool.and_eq_true,
        decide_eq_true_eq] at hquorum
      exact hquorum.2
    exact SignerModel.le_card_of_quorum hmodel hreached

def noonClock : Clock where
  first := ⟨2026, 3, 5, 12, 0, 0, 0, 0⟩
  second := ⟨2026, 3, 5, 12, 0, 0, 0, 250⟩

def asciiToUpperCase (text : Utf16) : Utf16 :=
  ⟨text.units.map fun unit =>
    if 97 ≤ unit ∧ unit ≤ 122 then unit - 32 else unit⟩

def payrollTask : MultisigTask where
  id := "ms-1"
  title := "payroll"
  description := "monthly payout"
  allSigners := ["alice", "bob", "carol"]
  threshold := 2
  totalSigners := 3
  collectedSigners := 0
  pendingSigners := ["alice", "bob", "carol"]
  approvedSigners := []
  txDigest := "0xAB12"
  updatedAt := noonClock.first
  status := .pending

/-- Bob's offline signature is imported while Alice's approval waits. -/
def overlappingLabels : List Label :=
  [.start (.approveTask "ms-1" "alice") noonClock,
    .start (.importOfflineSignatures "ms-1" "bob:0x12345678:0xab12")
      noonClock,
    .resume 1 noonClock, .resume 0 noonClock]

theorem run_signersSplit_overlappingLabels :
    ∃ start final,
      Workbench.create [payrollTask] = .ok start ∧
        exec (Workbench.step asciiToUpperCase) start overlappingLabels =
          some final ∧
        final.writes.length = 2 ∧
        ∀ task ∈ final.value.tasks, task.SignersSplit := by
  have hexec :
      ∃ start final,
        Workbench.create [payrollTask] = .ok start ∧
          exec (Workbench.step asciiToUpperCase) start overlappingLabels =
            some final ∧
          final.writes.length = 2 :=
    ⟨_, _, rfl, rfl, rfl⟩
  rcases hexec with ⟨start, final, hcreate, hrun, hwrites⟩
  exact ⟨start, final, hcreate, hrun, hwrites,
    (Workbench.run_signersSplit hcreate hrun).1⟩

end SoulonWallet.Multisig
