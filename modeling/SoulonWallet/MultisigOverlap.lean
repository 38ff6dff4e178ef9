import Mathlib.Tactic
import SoulonWallet.MultisigInvariant

/-!
# Overlapping operations

Approving, rejecting and submitting refuse to start while `processing` is set,
but `importOfflineSignatures` does not look at the flag.  An import that
overlaps with another call makes one of them write back a stale copy.  When
every import starts with no call in flight the flag excludes all overlaps, and
then no approval and no submission is lost.
-/

namespace SoulonWallet.Multisig

open LabelledRun

/-- Every task is still there, under its id and with all its approvals. -/
def WorkbenchState.Grows (value next : WorkbenchState) : Prop :=
  ∀ (index : ℕ) task, value.tasks[index]? = some task →
    ∃ later, next.tasks[index]? = some later ∧ later.id = task.id ∧
      task.approvedSigners ⊆ later.approvedSigners

namespace WorkbenchState

variable {value : WorkbenchState}

theorem Grows.of_tasks_eq
    {next : WorkbenchState} (htasks : next.tasks = value.tasks) :
    value.Grows next := by
  intro index task htask
  exact ⟨task, by rw [htasks, htask], rfl, List.Subset.refl _⟩

theorem Grows.trans
    {next last : WorkbenchState}
    (hfirst : value.Grows next) (hsecond : next.Grows last) :
    value.Grows last := by
  intro index task htask
  obtain ⟨later, hlater, hid, hsub⟩ := hfirst index task htask
  obtain ⟨final, hfinal, hid', hsub'⟩ := hsecond index later hlater
  exact ⟨final, hfinal, hid'.trans hid, List.Subset.trans hsub hsub'⟩

/-- `held` has all approvals of the stored tasks with its id. -/
def Covers (value : WorkbenchState) (held : MultisigTask) : Prop :=
  ∀ task ∈ value.tasks, task.id = held.id →
    task.approvedSigners ⊆ held.approvedSigners

def ids (value : WorkbenchState) : List Utf16 :=
  value.tasks.map fun task => task.id

theorem withTask_ids (value : WorkbenchState) (written : MultisigTask) :
    (value.withTask written).ids = value.ids := by
  simp only [ids, withTask, List.map_map]
  apply List.map_congr_left
  intro item _
  by_cases hid : item.id = written.id
  · simp [hid]
  · simp [hid]

theorem covers_of_findTask
    {taskId : Utf16} {held : MultisigTask} (hids : value.ids.Nodup)
    (hfind : value.findTask taskId = some held) :
    value.Covers held := by
  intro task htask hid
  have heq : task = held :=
    List.inj_on_of_nodup_map hids htask (mem_tasks_of_findTask hfind).1 hid
  rw [heq]
  exact List.Subset.refl _

end WorkbenchState

namespace Turn

variable {value : WorkbenchState} {held : MultisigTask} {turn : Turn}

theorem On.grows
    (hon : turn.On value held) (hcovers : value.Covers held) :
    value.Grows turn.value := by
  rcases hon.tasks with ⟨-, hsame⟩ | ⟨written, hevolves, -, hwritten⟩
  · exact .of_tasks_eq hsame
  · intro index task htask
    have hmem : task ∈ value.tasks := List.mem_of_getElem? htask
    refine ⟨if task.id = written.id then written else task, ?_, ?_, ?_⟩
    · simp [hwritten, WorkbenchState.withTask, htask]
    · by_cases hid : task.id = written.id
      · simp [hid]
      · simp [hid]
    · by_cases hid : task.id = written.id
      · have hheld := hcovers task hmem (hid.trans hevolves.id_eq)
        simp only [hid, if_true]
        exact List.Subset.trans hheld hevolves.approved_subset
      · simp [hid]

theorem On.ids_eq (hon : turn.On value held) :
    turn.value.ids = value.ids := by
  rcases hon.tasks with ⟨-, hsame⟩ | ⟨written, -, -, hwritten⟩
  · simp [WorkbenchState.ids, hsame]
  · rw [← value.withTask_ids written]
    simp [WorkbenchState.ids, hwritten]

theorem On.covers
    (hon : turn.On value held) (hcovers : value.Covers held)
    {inFlight : InFlight} (hnext : turn.next = .ok (some inFlight)) :
    turn.value.Covers inFlight.held := by
  have hwaits := hon.waits inFlight hnext
  intro task htask hid
  rcases hon.tasks with ⟨-, hsame⟩ | ⟨written, hevolves, hone, hwritten⟩
  · rw [hsame] at htask
    exact List.Subset.trans
      (hcovers task htask (hid.trans hwaits.id_eq)) hwaits.approved_subset
  · simp only [hwritten, WorkbenchState.withTask, List.mem_map] at htask
    rcases htask with ⟨item, hitem, rfl⟩
    by_cases hsame : item.id = written.id
    · simp only [hsame, if_true]
      exact (hon.waits_writes inFlight hnext written (by simp [hone])).2
    · simp only [hsame, if_false] at hid
      exact absurd (hid.trans (hwaits.id_eq.trans hevolves.id_eq.symm)) hsame

end Turn

/-! ## The processing flag -/

variable {value : WorkbenchState}

theorem Call.start_of_processing
    {call : Call} (clock : Clock) (hprocessing : value.processing = true)
    (hcall : ∀ taskId payload,
      call ≠ .importOfflineSignatures taskId payload) :
    (call.start value clock).Idle value ∧
      (call.start value clock).value.processing = true := by
  have hstarts : call.Starts value clock (call.start value clock) :=
    call.start_starts clock
  generalize call.start value clock = turn at hstarts
  cases hstarts with
  | throws =>
      exact ⟨WorkbenchState.throws_idle _ rfl, hprocessing⟩
  | approves hfind hpending hfree => simp [hfree] at hprocessing
  | rejects hfind hfree => simp [hfree] at hprocessing
  | imports => exact absurd rfl (hcall _ _)
  | submits hfind hfree => simp [hfree] at hprocessing
  | clears => exact ⟨WorkbenchState.returns_idle rfl, hprocessing⟩

theorem Call.processing_of_waits
    {call : Call} {clock : Clock} {inFlight : InFlight}
    (hnext : (call.start value clock).next = .ok (some inFlight)) :
    (call.start value clock).value.processing = true := by
  have hstarts : call.Starts value clock (call.start value clock) :=
    call.start_starts clock
  generalize call.start value clock = turn at hstarts hnext
  cases hstarts with
  | throws => simp [WorkbenchState.throws] at hnext
  | approves | rejects | imports => rfl
  | submits =>
      simp only [WorkbenchState.startSubmission, WorkbenchState.updateTask]
      split <;> rfl
  | clears =>
      simp [WorkbenchState.clearImportProgress, WorkbenchState.returns]
        at hnext

/-- Only an import waits more than once, and it leaves the flag alone. -/
theorem InFlight.Yields.processing_of_waits
    {toUpperCase : Utf16 → Utf16} {inFlight later : InFlight} {turn : Turn}
    (hyields : inFlight.Yields toUpperCase value turn)
    (hmodel : inFlight.held.WellFormed)
    (hnext : turn.next = .ok (some later)) :
    turn.value.processing = value.processing := by
  cases hyields.moves hmodel with
  | throws => simp [WorkbenchState.throws] at hnext
  | handles hline hlater htasks hprocessing => exact hprocessing
  | writes hresults hends => exact absurd hnext (hends.ends later)

namespace Workbench

/-- The condition: an import starts only when no call is in flight. -/
def ImportsAlone (workbench : Workbench) : Label → Prop
  | .start (.importOfflineSignatures _ _) _ => workbench.calls.keys = []
  | _ => True

/-- At most one call is in flight, it has the flag set, and its copy covers
the stored tasks. -/
structure Exclusive (workbench : Workbench) : Prop where
  ids_nodup : workbench.value.ids.Nodup
  alone : ∀ id other waiting otherWaiting,
    workbench.calls.lookup id = some waiting →
      workbench.calls.lookup other = some otherWaiting → id = other
  processing : ∀ id waiting, workbench.calls.lookup id = some waiting →
    workbench.value.processing = true
  covers : ∀ id call inFlight,
    workbench.calls.lookup id = some (call, inFlight) →
      workbench.value.Covers inFlight.held
  started : ∀ id waiting, workbench.calls.lookup id = some waiting →
    id < workbench.nextCall

theorem lookup_settle_alone
    {workbench : Workbench} {id other : ℕ} {call otherCall : Call}
    {turn : Turn} {inFlight : InFlight}
    (halone : ∀ other waiting,
      workbench.calls.lookup other = some waiting → other = id)
    (hlookup : (workbench.settle id call turn).calls.lookup other =
      some (otherCall, inFlight)) :
    other = id ∧ otherCall = call ∧ turn.next = .ok (some inFlight) := by
  rcases lookup_settle hlookup with hsame | ⟨hne, hold⟩
  · exact hsame
  · exact absurd (halone other _ hold) hne

theorem Exclusive.settle
    {workbench : Workbench} {id : ℕ} {turn : Turn} {held : MultisigTask}
    (call : Call) (hids : workbench.value.ids.Nodup)
    (halone : ∀ other waiting,
      workbench.calls.lookup other = some waiting → other = id)
    (hstarted : id < workbench.nextCall)
    (hon : turn.On workbench.value held)
    (hcovers : workbench.value.Covers held)
    (hprocessing : ∀ inFlight, turn.next = .ok (some inFlight) →
      turn.value.processing = true) :
    (workbench.settle id call turn).Exclusive := by
  have honly : ∀ other otherCall inFlight,
      (workbench.settle id call turn).calls.lookup other =
          some (otherCall, inFlight) →
        other = id ∧ turn.next = .ok (some inFlight) := by
    intro other otherCall inFlight hlookup
    obtain ⟨heq, -, hnext⟩ := lookup_settle_alone halone hlookup
    exact ⟨heq, hnext⟩
  constructor
  · simp only [Workbench.settle, hon.ids_eq]
    exact hids
  · intro first second waiting otherWaiting hfirst hsecond
    exact (honly first _ _ hfirst).1.trans (honly second _ _ hsecond).1.symm
  · intro other waiting hlookup
    exact hprocessing _ (honly other _ _ hlookup).2
  · intro other otherCall inFlight hlookup
    exact hon.covers hcovers (honly other _ _ hlookup).2
  · intro other waiting hlookup
    rw [(honly other _ _ hlookup).1]
    exact hstarted

theorem Exclusive.settle_idle
    {workbench : Workbench} {id : ℕ} {turn : Turn} (call : Call)
    (hexclusive : workbench.Exclusive)
    (hidle : turn.Idle workbench.value)
    (hprocessing : ∀ other waiting,
      workbench.calls.lookup other = some waiting →
        turn.value.processing = true) :
    (workbench.settle id call turn).Exclusive := by
  have hold : ∀ other waiting,
      (workbench.settle id call turn).calls.lookup other = some waiting →
        workbench.calls.lookup other = some waiting := by
    intro other waiting hlookup
    rcases lookup_settle hlookup with ⟨-, -, hnext⟩ | ⟨-, hlookup⟩
    · exact absurd hnext (hidle.ends _)
    · exact hlookup
  constructor
  · simp only [Workbench.settle, WorkbenchState.ids, hidle.quiet.2]
    exact hexclusive.ids_nodup
  · intro first second waiting otherWaiting hfirst hsecond
    exact hexclusive.alone first second waiting otherWaiting
      (hold first waiting hfirst) (hold second otherWaiting hsecond)
  · intro other waiting hlookup
    exact hprocessing other waiting (hold other waiting hlookup)
  · intro other otherCall inFlight hlookup task htask
    simp only [Workbench.settle, hidle.quiet.2] at htask
    exact hexclusive.covers other otherCall inFlight
      (hold other _ hlookup) task htask
  · intro other waiting hlookup
    exact hexclusive.started other waiting (hold other waiting hlookup)

theorem lookup_eq_none_of_keys
    {workbench : Workbench} (hkeys : workbench.calls.keys = []) (id : ℕ) :
    workbench.calls.lookup id = none := by
  rw [AList.lookup_eq_none, AList.mem_keys, hkeys]
  exact List.not_mem_nil

/-- The turn of a step under the condition: it fails without effect, or no
other call is in flight. -/
inductive TurnAlone (workbench : Workbench) (id : ℕ) (turn : Turn) : Prop
  | idle (hidle : turn.Idle workbench.value)
      (hprocessing : ∀ other waiting,
        workbench.calls.lookup other = some waiting →
          turn.value.processing = true)
  | on (held : MultisigTask) (hon : turn.On workbench.value held)
      (hcovers : workbench.value.Covers held)
      (halone : ∀ other waiting,
        workbench.calls.lookup other = some waiting → other = id)
      (hprocessing : ∀ inFlight, turn.next = .ok (some inFlight) →
        turn.value.processing = true)

theorem Exclusive.step_cases
    {toUpperCase : Utf16 → Utf16} {workbench next : Workbench}
    {label : Label} (hexclusive : workbench.Exclusive)
    (hmodelled : workbench.Modelled) (halone : workbench.ImportsAlone label)
    (hstep : workbench.step toUpperCase label = some next) :
    ∃ nextCall id call turn,
      next = { workbench with nextCall }.settle id call turn ∧
        workbench.nextCall ≤ nextCall ∧ id < nextCall ∧
        TurnAlone workbench id turn := by
  rcases Workbench.step_cases hstep with
    ⟨call, clock, rfl, rfl⟩ |
      ⟨id, call, inFlight, turn, -, hlookup, hyields, rfl⟩
  · refine ⟨_, _, call, _, rfl, Nat.le_succ _, Nat.lt_succ_self _, ?_⟩
    by_cases hempty : workbench.calls.keys = []
    · have hnone : ∀ other waiting,
          workbench.calls.lookup other ≠ some waiting := by
        intro other waiting
        simp [lookup_eq_none_of_keys hempty]
      rcases call.start_on clock hmodelled.tasks with
        hidle | ⟨taskId, held, -, hfind, hon⟩
      · exact .idle hidle fun other waiting hlookup =>
          absurd hlookup (hnone other waiting)
      · exact .on held hon
          (WorkbenchState.covers_of_findTask hexclusive.ids_nodup hfind)
          (fun other waiting hlookup => absurd hlookup (hnone other waiting))
          (fun _ hnext => Call.processing_of_waits hnext)
    · obtain ⟨id, hid⟩ := List.exists_mem_of_ne_nil _ hempty
      rcases Option.isSome_iff_exists.mp
        (AList.lookup_isSome.mpr (AList.mem_keys.mpr hid)) with
        ⟨waiting, hlookup⟩
      have hcall : ∀ taskId payload,
          call ≠ .importOfflineSignatures taskId payload := by
        rintro taskId payload rfl
        exact hempty halone
      rcases Call.start_of_processing clock
          (hexclusive.processing id waiting hlookup) hcall with
        ⟨hidle, hprocessing⟩
      exact .idle hidle fun _ _ _ => hprocessing
  · refine ⟨workbench.nextCall, id, call, turn, rfl, le_refl _,
      hexclusive.started id _ hlookup, ?_⟩
    have hheld := hmodelled.held id call inFlight hlookup
    refine .on inFlight.held (hyields.on hheld)
      (hexclusive.covers id call inFlight hlookup) ?_ ?_
    · intro other waiting hother
      exact hexclusive.alone other id _ _ hother hlookup
    · intro later hnext
      rw [hyields.processing_of_waits hheld hnext]
      exact hexclusive.processing id _ hlookup

structure Safe (workbench : Workbench) : Prop where
  exclusive : workbench.Exclusive
  modelled : workbench.Modelled

theorem Safe.step
    {toUpperCase : Utf16 → Utf16} {workbench next : Workbench}
    {label : Label} (hsafe : workbench.Safe)
    (halone : workbench.ImportsAlone label)
    (hstep : workbench.step toUpperCase label = some next) :
    next.Safe ∧ workbench.value.Grows next.value := by
  have hmodelled := hsafe.modelled.step hstep
  have hexclusive := hsafe.exclusive
  obtain ⟨nextCall, id, call, turn, rfl, hle, hlt, hturn⟩ :=
    hexclusive.step_cases hsafe.modelled halone hstep
  cases hturn with
  | idle hidle hprocessing =>
      have hcounted : ({ workbench with nextCall } : Workbench).Exclusive :=
        ⟨hexclusive.ids_nodup, hexclusive.alone, hexclusive.processing,
          hexclusive.covers, fun id waiting hlookup =>
            lt_of_lt_of_le (hexclusive.started id waiting hlookup) hle⟩
      exact ⟨⟨hcounted.settle_idle call hidle hprocessing, hmodelled⟩,
        .of_tasks_eq hidle.quiet.2⟩
  | on held hon hcovers halone hprocessing =>
      exact ⟨⟨Exclusive.settle call hexclusive.ids_nodup halone hlt hon
        hcovers hprocessing, hmodelled⟩, hon.grows hcovers⟩

/-! ## Submissions -/

/-- The step wrote `task`, with the hash of a submission. -/
structure WritesOnChain (before after : Workbench) (task : MultisigTask) :
    Prop where
  writes : after.writes = before.writes ++ [task]
  hash : task.onChainTxHash ≠ none
  status : task.status = .submitted ∨ task.status = .confirmed

/-- The write of a submission is the last turn of its call, so it leaves no
call in flight. -/
theorem Exclusive.no_calls_of_writesOnChain
    {toUpperCase : Utf16 → Utf16} {workbench next : Workbench}
    {label : Label} {task : MultisigTask} (hexclusive : workbench.Exclusive)
    (hmodelled : workbench.Modelled) (halone : workbench.ImportsAlone label)
    (hstep : workbench.step toUpperCase label = some next)
    (hwrites : WritesOnChain workbench next task) (other : ℕ) :
    next.calls.lookup other = none := by
  obtain ⟨nextCall, id, call, turn, rfl, -, -, hturn⟩ :=
    hexclusive.step_cases hmodelled halone hstep
  have hone : turn.writes = [task] :=
    List.append_cancel_left hwrites.writes
  cases hturn with
  | idle hidle hprocessing => simp [hidle.quiet.1] at hone
  | on held hon hcovers halone hprocessing =>
      cases hlookup : (({ workbench with nextCall } : Workbench).settle id call
          turn).calls.lookup other with
      | none => rfl
      | some waiting =>
          rcases waiting with ⟨otherCall, inFlight⟩
          rcases lookup_settle hlookup with ⟨-, -, hnext⟩ | ⟨hne, hold⟩
          · have hstatus :=
              (hon.waits_writes inFlight hnext task (by simp [hone])).1
            rcases hwrites.status with hsubmitted | hconfirmed
            · simp [hstatus] at hsubmitted
            · simp [hstatus] at hconfirmed
          · exact absurd (halone other _ hold) hne

def StartedFrom (first : ℕ) (workbench : Workbench) : Prop :=
  first ≤ workbench.nextCall ∧
    ∀ id waiting, workbench.calls.lookup id = some waiting → first ≤ id

theorem StartedFrom.step
    {toUpperCase : Utf16 → Utf16} {first : ℕ} {workbench next : Workbench}
    {label : Label} (hstarted : StartedFrom first workbench)
    (hstep : workbench.step toUpperCase label = some next) :
    StartedFrom first next := by
  rcases Workbench.step_cases hstep with
    ⟨call, clock, rfl, rfl⟩ |
      ⟨id, call, inFlight, turn, -, hlookup, hyields, rfl⟩
  · refine ⟨Nat.le_succ_of_le hstarted.1, ?_⟩
    intro other waiting hother
    rcases lookup_settle hother with ⟨rfl, -, -⟩ | ⟨-, hold⟩
    · exact hstarted.1
    · exact hstarted.2 other waiting hold
  · refine ⟨hstarted.1, ?_⟩
    intro other waiting hother
    rcases lookup_settle hother with ⟨rfl, -, -⟩ | ⟨-, hold⟩
    · exact hstarted.2 other _ hlookup
    · exact hstarted.2 other waiting hold

end Workbench

/-- Approvals never get lost: a signer who approved the task at some index has
approved it in every later state of the run. -/
def ApprovalsKept (toUpperCase : Utf16 → Utf16) (start : Workbench)
    (labels : List Label) : Prop :=
  ∀ front middle back before after,
    labels = front ++ (middle ++ back) →
      exec (Workbench.step toUpperCase) start front = some before →
        exec (Workbench.step toUpperCase) before middle = some after →
          ∀ (index : ℕ) task signer,
            before.value.tasks[index]? = some task →
              signer ∈ task.approvedSigners →
                ∃ later, after.value.tasks[index]? = some later ∧
                  later.id = task.id ∧ signer ∈ later.approvedSigners

/-- Submissions never get overwritten: after a write with the hash of a
submission, no turn of a call that started before it changes the status of the
task or removes its hash. -/
def SubmissionsKept (toUpperCase : Utf16 → Utf16) (start : Workbench)
    (labels : List Label) : Prop :=
  ∀ front label middle later back before written between after task call,
    labels = front ++ label :: (middle ++ later :: back) →
      exec (Workbench.step toUpperCase) start front = some before →
        before.step toUpperCase label = some written →
          Workbench.WritesOnChain before written task →
            exec (Workbench.step toUpperCase) written middle =
                some between →
              later.call = some call → call < written.nextCall →
                between.step toUpperCase later = some after →
                  ∀ (index : ℕ) held,
                    between.value.tasks[index]? = some held →
                      held.id = task.id →
                        ∃ next, after.value.tasks[index]? = some next ∧
                          next.status = held.status ∧
                          (held.onChainTxHash ≠ none →
                            next.onChainTxHash ≠ none)

namespace Workbench

instance (workbench : Workbench) :
    (label : Label) → Decidable (workbench.ImportsAlone label)
  | .start (.importOfflineSignatures _ _) _ =>
      inferInstanceAs (Decidable (workbench.calls.keys = []))
  | .start (.approveTask _ _) _ | .start (.rejectTask _ _) _
  | .start (.submitTaskOnChain _) _ | .start .clearImportProgress _
  | .resume _ _ | .answer _ _ _ => .isTrue trivial

theorem create_exclusive
    {seedTasks : List MultisigTask} {start : Workbench}
    (hcreate : create seedTasks = .ok start)
    (hids : (seedTasks.map fun task => task.id).Nodup) :
    start.Exclusive := by
  unfold create at hcreate
  split at hcreate
  next => simp at hcreate
  next =>
    rw [← Except.ok.inj hcreate]
    exact ⟨hids, by simp, by simp, by simp, by simp⟩

/-- When every import starts with no call in flight, no approval and no
submission is lost, in any interleaving. -/
theorem kept_of_importsAlone
    {toUpperCase : Utf16 → Utf16} {seedTasks : List MultisigTask}
    {start : Workbench} {labels : List Label}
    (hcreate : create seedTasks = .ok start)
    (hids : (seedTasks.map fun task => task.id).Nodup)
    (hguard : Guarded (step toUpperCase) ImportsAlone start labels) :
    ApprovalsKept toUpperCase start labels ∧
      SubmissionsKept toUpperCase start labels := by
  have hstart : start.Safe :=
    ⟨create_exclusive hcreate hids, create_modelled hcreate⟩
  constructor
  · intro front middle back before after hlabels hfront hmiddle index task
      signer htask hsigner
    subst hlabels
    obtain ⟨hguardFront, hguardRest⟩ := hguard.split hfront
    obtain ⟨hguardMiddle, -⟩ := hguardRest.split hmiddle
    have hbefore : before.Safe :=
      invariant_of_guarded Safe
        (fun _ _ _ hsafe halone hstep => (hsafe.step halone hstep).1) hstart
        hguardFront hfront
    have hafter : after.Safe ∧ before.value.Grows after.value := by
      refine invariant_of_guarded
        (fun workbench : Workbench => workbench.Safe ∧
          before.value.Grows workbench.value) ?_
        ⟨hbefore, .of_tasks_eq rfl⟩ hguardMiddle hmiddle
      intro workbench label next hsafe halone hstep
      obtain ⟨hnext, hgrows⟩ := hsafe.1.step halone hstep
      exact ⟨hnext, hsafe.2.trans hgrows⟩
    obtain ⟨later, hlater, hid, hsub⟩ := hafter.2 index task htask
    exact ⟨later, hlater, hid, hsub hsigner⟩
  · intro front label middle later back before written between after task
      call hlabels hfront hwrite hwrites hmiddle hcall hearlier hlater
    subst hlabels
    obtain ⟨hguardFront, hguardRest⟩ := hguard.split hfront
    have hbefore : before.Safe :=
      invariant_of_guarded Safe
        (fun _ _ _ hsafe halone hstep => (hsafe.step halone hstep).1) hstart
        hguardFront hfront
    rw [guarded_cons_of_step hwrite] at hguardRest
    have hnone := hbefore.exclusive.no_calls_of_writesOnChain
      hbefore.modelled hguardRest.1 hwrite hwrites
    have hstarted : StartedFrom written.nextCall between :=
      invariant_of_step (StartedFrom written.nextCall)
        (fun _ _ _ hstarted hstep => hstarted.step hstep)
        ⟨le_refl _, by simp [hnone]⟩ hmiddle
    rcases Workbench.step_cases hlater with
      ⟨_, _, rfl, -⟩ | ⟨id, _, _, _, hid, hlookup, -, -⟩
    · simp [Label.call] at hcall
    · have hsame : id = call := by
        simpa [hid] using hcall
      have hle := hstarted.2 id _ hlookup
      omega

end Workbench

def orderlyLabels : List Label :=
  [.start (.approveTask "ms-1" "alice") noonClock, .resume 0 noonClock,
    .start (.importOfflineSignatures "ms-1" "bob:0x12345678:0xab12")
      noonClock,
    .resume 1 noonClock, .start (.submitTaskOnChain "ms-1") noonClock,
    .answer 2 (.receipt ⟨"0xFEED", 7, true, "链上确认成功"⟩) noonClock]

theorem kept_orderlyLabels :
    ∃ start,
      Workbench.create [payrollTask] = .ok start ∧
        Guarded (Workbench.step asciiToUpperCase) Workbench.ImportsAlone start
          orderlyLabels ∧
        ApprovalsKept asciiToUpperCase start orderlyLabels ∧
        SubmissionsKept asciiToUpperCase start orderlyLabels := by
  have hguarded :
      ∃ start,
        Workbench.create [payrollTask] = .ok start ∧
          Guarded (Workbench.step asciiToUpperCase) Workbench.ImportsAlone
            start orderlyLabels :=
    ⟨_, rfl, by decide⟩
  rcases hguarded with ⟨start, hcreate, hguard⟩
  exact ⟨start, hcreate, hguard,
    Workbench.kept_of_importsAlone hcreate (by decide) hguard⟩

def readyTask : MultisigTask :=
  { payrollTask with
    collectedSigners := 2
    pendingSigners := ["carol"]
    approvedSigners := ["alice", "bob"]
    status := .ready }

/-- An import starts while the submission is on its way and ends after it. -/
def staleImportLabels : List Label :=
  [.start (.submitTaskOnChain "ms-1") noonClock,
    .start (.importOfflineSignatures "ms-1" "nonsense") noonClock,
    .answer 0 (.receipt ⟨"0xFEED", 7, true, "链上确认成功"⟩) noonClock,
    .resume 1 noonClock]

theorem not_kept_overlapping :
    (∃ start, Workbench.create [payrollTask] = .ok start ∧
        ¬ ApprovalsKept asciiToUpperCase start overlappingLabels) ∧
      ∃ start, Workbench.create [readyTask] = .ok start ∧
        ¬ SubmissionsKept asciiToUpperCase start staleImportLabels := by
  constructor
  · refine ⟨_, rfl, ?_⟩
    intro hkept
    rcases hkept (overlappingLabels.take 3) (overlappingLabels.drop 3) [] _ _
      rfl rfl rfl 0 _ "bob" rfl (by decide) with
      ⟨later, hlater, -, hbob⟩
    rw [← Option.some.inj hlater] at hbob
    exact absurd hbob (by decide)
  · refine ⟨_, rfl, ?_⟩
    intro hkept
    rcases hkept (staleImportLabels.take 2)
      (.answer 0 (.receipt ⟨"0xFEED", 7, true, "链上确认成功"⟩) noonClock) []
      (.resume 1 noonClock) [] _ _ _ _ _ 1 rfl rfl rfl
      ⟨rfl, by decide, by decide⟩ rfl rfl (by decide) rfl 0 _ rfl rfl with
      ⟨next, hnext, hstatus, -⟩
    rw [← Option.some.inj hnext] at hstatus
    exact absurd hstatus (by decide)

end SoulonWallet.Multisig
