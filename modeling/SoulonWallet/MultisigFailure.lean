import SoulonWallet.MultisigBusy

/-!
# Failed submissions

A submission that the submitter fails writes back the copy of the task it took
at its start, with the status ready.  So the task is as before, up to the time
of its update, exactly if a check has refused the submission or the task was
ready; other turns may come between the start and the failure.
-/

namespace SoulonWallet.Multisig

open LabelledRun

/-- All fields but `updatedAt` are the same. -/
def MultisigTask.SameButTime (task next : MultisigTask) : Prop :=
  next = { task with updatedAt := next.updatedAt }

namespace Workbench

/-- A submission of the task that starts in `before` ends with an exception,
in its first turn or in a later one. -/
inductive SubmissionFails (toUpperCase : Utf16 → Utf16)
    (before : Workbench) (taskId : Utf16) : Workbench → Prop
  | atOnce {clock : Clock} {message : Utf16} {after : Workbench}
      (hstep : before.step toUpperCase
        (.start (.submitTaskOnChain taskId) clock) = some after)
      (hfinished : after.finished =
        before.finished ++ [(.submitTaskOnChain taskId, .error message)]) :
      SubmissionFails toUpperCase before taskId after
  | later {clock : Clock} {labels : List Label} {label : Label}
      {message : Utf16} {middle after : Workbench}
      (hrun : exec (step toUpperCase) before
        (.start (.submitTaskOnChain taskId) clock :: labels) = some middle)
      (hlabel : label.call = some before.nextCall)
      (hstep : middle.step toUpperCase label = some after)
      (hfinished : after.finished =
        middle.finished ++ [(.submitTaskOnChain taskId, .error message)]) :
      SubmissionFails toUpperCase before taskId after

/-- What waits under the id, if anything, has the property. -/
def Carries (id : ℕ) (waits : Call × InFlight → Prop)
    (workbench : Workbench) : Prop :=
  id < workbench.nextCall ∧
    ∀ waiting, workbench.calls.lookup id = some waiting → waits waiting

variable {toUpperCase : Utf16 → Utf16} {workbench next : Workbench}
variable {label : Label} {id : ℕ} {waits : Call × InFlight → Prop}

theorem Carries.step
    (hcarries : workbench.Carries id waits)
    (hmoves : ∀ call inFlight value turn later,
      waits (call, inFlight) →
        inFlight.Yields toUpperCase value turn →
        turn.next ≠ .ok (some later))
    (hstep : workbench.step toUpperCase label = some next) :
    next.Carries id waits := by
  rcases step_cases hstep with
    ⟨call, clock, rfl, rfl⟩ |
      ⟨other, call, inFlight, turn, -, hlookup, hyields, rfl⟩
  · refine ⟨Nat.lt_succ_of_lt hcarries.1, ?_⟩
    rintro ⟨otherCall, waiting⟩ hwaiting
    rcases lookup_settle hwaiting with ⟨rfl, -, -⟩ | ⟨-, hold⟩
    · exact absurd hcarries.1 (lt_irrefl _)
    · exact hcarries.2 _ hold
  · refine ⟨hcarries.1, ?_⟩
    rintro ⟨otherCall, waiting⟩ hwaiting
    rcases lookup_settle hwaiting with ⟨rfl, -, hnext⟩ | ⟨-, hold⟩
    · exact absurd hnext
        (hmoves call inFlight _ turn waiting (hcarries.2 _ hlookup) hyields)
    · exact hcarries.2 _ hold

theorem Modelled.step_ids
    (hmodelled : workbench.Modelled)
    (hstep : workbench.step toUpperCase label = some next) :
    next.value.ids = workbench.value.ids := by
  rcases step_cases hstep with
    ⟨call, clock, rfl, rfl⟩ |
      ⟨id, call, inFlight, turn, -, hlookup, hyields, rfl⟩
  · rcases call.start_on clock hmodelled.tasks with
      hidle | ⟨taskId, held, -, -, hon⟩
    · exact congrArg (List.map fun task => task.id) hidle.quiet.2
    · exact hon.ids_eq
  · exact (hyields.on (hmodelled.held id call inFlight hlookup)).ids_eq

theorem exists_findTask_of_ids
    {value other : WorkbenchState} {taskId : Utf16} {task : MultisigTask}
    (hfind : value.findTask taskId = some task)
    (hids : other.ids = value.ids) :
    ∃ found, other.findTask taskId = some found := by
  obtain ⟨hmem, hid⟩ := WorkbenchState.mem_tasks_of_findTask hfind
  have hsame : taskId ∈ other.ids := by
    rw [hids, ← hid]
    exact List.mem_map_of_mem hmem
  obtain ⟨found, hfound, hfoundId⟩ := List.mem_map.mp hsame
  rw [WorkbenchState.findTask, ← Option.isSome_iff_exists,
    List.find?_isSome]
  exact ⟨found, hfound, by simpa using hfoundId⟩

theorem next_of_finished
    {call otherCall : Call} {turn : Turn} {message : Utf16}
    (hfinished : (workbench.settle id call turn).finished =
      workbench.finished ++ [(otherCall, .error message)]) :
    turn.next = .error message := by
  simp only [settle] at hfinished
  split at hfinished
  · simp at hfinished
  · simp at hfinished
  next other hnext =>
    obtain ⟨-, hlast⟩ := List.append_singleton_inj.mp hfinished
    rw [hnext, Except.error.inj (Prod.mk.inj hlast).2]

/-- An exception of the submitter writes the task back as ready. -/
theorem tasks_of_submissionError
    {value : WorkbenchState} {task : MultisigTask} {startedAt : DateTime}
    {turn : Turn} {message : Utf16} (hmodel : task.WellFormed)
    (hyields : (InFlight.submitting task startedAt).Yields toUpperCase value
      turn)
    (herror : turn.next = .error message) :
    ∃ updatedAt, turn.value.tasks =
      (value.withTask { task with status := .ready, updatedAt }).tasks := by
  rcases hyields with ⟨clock, hresume⟩ | ⟨outcome, clock, hanswer⟩
  · cases hresume
  · cases outcome with
    | receipt receipt =>
        obtain rfl := Option.some.inj hanswer
        unfold WorkbenchState.finishSubmission at herror
        dsimp only at herror
        rw [WorkbenchState.updateTask_eq (by exact hmodel)] at herror
        cases herror
    | apiClientException message | formatException message | otherError =>
        obtain rfl := Option.some.inj hanswer
        refine ⟨clock.first, ?_⟩
        unfold WorkbenchState.failSubmission
        rw [WorkbenchState.updateTask_eq (by exact hmodel)]
        rfl

variable {before after : Workbench} {taskId : Utf16} {task : MultisigTask}

theorem run_ids
    {labels : List Label} (hmodelled : workbench.Modelled)
    (hrun : exec (step toUpperCase) workbench labels = some next) :
    next.value.ids = workbench.value.ids := by
  have hkept : next.Modelled ∧ next.value.ids = workbench.value.ids := by
    refine invariant_of_step
      (fun other => other.Modelled ∧ other.value.ids = workbench.value.ids)
      ?_ ⟨hmodelled, rfl⟩ hrun
    rintro other label later ⟨hother, hids⟩ hstep
    exact ⟨hother.step hstep, (hother.step_ids hstep).trans hids⟩
  exact hkept.2

/-- What is under the id of a submission when a later turn of it comes. -/
theorem lookup_submission
    {clock : Clock} {labels : List Label} {call : Call} {inFlight : InFlight}
    (hrun : exec (step toUpperCase) before
      (.start (.submitTaskOnChain taskId) clock :: labels) = some next)
    (hmodel : ∀ task, before.value.findTask taskId = some task →
      task.WellFormed)
    (hlookup : next.calls.lookup before.nextCall = some (call, inFlight)) :
    ∃ task, before.value.findTask taskId = some task ∧
      before.value.Submits task ∧
      inFlight = .submitting task clock.first := by
  obtain ⟨started, hstep, hlater⟩ := exec_cons_eq_some.mp hrun
  obtain rfl := Option.some.inj hstep
  have hstarted := lookup_settle_self
    { before with nextCall := before.nextCall + 1 } before.nextCall
    (.submitTaskOnChain taskId)
    (Call.start before.value clock (.submitTaskOnChain taskId))
  rcases before.value.submitTaskOnChain_cases taskId clock with
    ⟨task, hfind, hsubmits, hstart⟩ | ⟨-, message, hstart⟩
  · refine ⟨task, hfind, hsubmits, ?_⟩
    rw [Call.start, hstart, WorkbenchState.startSubmission,
      WorkbenchState.updateTask_eq (by exact hmodel task hfind)]
      at hstarted hlater
    have hcarries := invariant_of_step
      (Carries before.nextCall fun waiting =>
        waiting.2 = .submitting task clock.first)
      (fun _ _ _ hcarries hstep => hcarries.step (by
        rintro call inFlight value turn later rfl hyields
        exact hyields.last (by simp) later) hstep)
      ⟨Nat.lt_succ_self _, fun waiting hwaiting => by
        rw [hstarted] at hwaiting
        rw [← Option.some.inj hwaiting]⟩ hlater
    exact hcarries.2 _ hlookup
  · rw [Call.start, hstart] at hstarted hlater
    have hcarries := invariant_of_step
      (Carries before.nextCall fun _ => False)
      (fun _ _ _ hcarries hstep => hcarries.step (by
        intro call inFlight value turn later hnever
        exact hnever.elim) hstep)
      ⟨Nat.lt_succ_self _, fun waiting hwaiting => by
        rw [hstarted] at hwaiting
        cases hwaiting⟩ hlater
    exact (hcarries.2 _ hlookup).elim

/-- The two ways in which a submission ends with an exception. -/
theorem SubmissionFails.value_cases
    (hmodelled : before.Modelled)
    (hfind : before.value.findTask taskId = some task)
    (hfails : SubmissionFails toUpperCase before taskId after) :
    (¬ before.value.Submits task ∧ after.value = before.value) ∨
      before.value.Submits task ∧
        ∃ updatedAt, after.value.findTask taskId =
          some { task with status := .ready, updatedAt } := by
  have hmodel : task.WellFormed := hmodelled.tasks task
    (WorkbenchState.mem_tasks_of_findTask hfind).1
  have hid := (WorkbenchState.mem_tasks_of_findTask hfind).2
  cases hfails with
  | @atOnce clock message _ hstep hfinished =>
      obtain rfl := Option.some.inj hstep
      have herror := next_of_finished hfinished
      rw [Call.start] at herror ⊢
      rcases before.value.submitTaskOnChain_cases taskId clock with
        ⟨other, hother, hsubmits, hstart⟩ | ⟨hrefused, text, hstart⟩
      · obtain rfl := Option.some.inj (hfind.symm.trans hother)
        rw [hstart, WorkbenchState.startSubmission,
          WorkbenchState.updateTask_eq (by exact hmodel)] at herror
        cases herror
      · rw [hstart]
        exact Or.inl ⟨hrefused task hfind, rfl⟩
  | @later clock labels label message middle _ hrun hlabel hstep hfinished =>
      rcases step_cases hstep with
        ⟨call, otherClock, rfl, -⟩ |
          ⟨other, call, inFlight, turn, hother, hlookup, hyields, rfl⟩
      · cases hlabel
      obtain rfl := Option.some.inj (hother.symm.trans hlabel)
      have hall : ∀ found, before.value.findTask taskId = some found →
          found.WellFormed := by
        intro found hfound
        obtain rfl := Option.some.inj (hfind.symm.trans hfound)
        exact hmodel
      obtain ⟨found, hfound, hsubmits, rfl⟩ :=
        lookup_submission hrun hall hlookup
      obtain rfl := Option.some.inj (hfind.symm.trans hfound)
      obtain ⟨updatedAt, htasks⟩ := tasks_of_submissionError hmodel hyields
        (next_of_finished hfinished)
      obtain ⟨current, hcurrent⟩ :=
        exists_findTask_of_ids hfind (run_ids hmodelled hrun)
      have hwritten : ({ task with
          status := .ready, updatedAt } : MultisigTask).id = taskId := hid
      refine Or.inr ⟨hsubmits, updatedAt, ?_⟩
      rw [← WorkbenchState.findTask_withTask hcurrent hwritten]
      exact congrArg (List.find? fun task => task.id = taskId) htasks

theorem failed_submission_keeps_iff
    {seedTasks : List MultisigTask} {start : Workbench}
    {labels : List Label}
    (hcreate : Workbench.create seedTasks = .ok start)
    (hreach : exec (step toUpperCase) start labels = some before)
    (hfind : before.value.findTask taskId = some task)
    (hfails : SubmissionFails toUpperCase before taskId after) :
    (∃ next, after.value.findTask taskId = some next ∧
        task.SameButTime next) ↔
      ¬ before.value.Submits task ∨ task.status = .ready := by
  rcases hfails.value_cases (run_modelled hcreate hreach) hfind with
    ⟨hrefused, hsame⟩ | ⟨hsubmits, updatedAt, hafter⟩
  · refine iff_of_true ⟨task, ?_, rfl⟩ (Or.inl hrefused)
    rw [hsame]
    exact hfind
  · constructor
    · rintro ⟨next, hnext, hkept⟩
      obtain rfl := Option.some.inj (hafter.symm.trans hnext)
      exact Or.inr (congrArg MultisigTask.status hkept).symm
    · rintro (hrefused | hready)
      · exact absurd hsubmits hrefused
      · exact ⟨_, hafter, by rw [MultisigTask.SameButTime, hready]⟩

end Workbench

/-- The submitter fails for a task that was ready. -/
theorem failed_submission_keeps_readyTask :
    ∃ start after next,
      Workbench.create [readyTask] = .ok start ∧
        start.SubmissionFails asciiToUpperCase "ms-1" after ∧
        after.value.findTask "ms-1" = some next ∧
        readyTask.SameButTime next := by
  have hexec : ∃ start middle after,
      Workbench.create [readyTask] = .ok start ∧
        start.value.findTask "ms-1" = some readyTask ∧
        exec (Workbench.step asciiToUpperCase) start
          [.start (.submitTaskOnChain "ms-1") noonClock] = some middle ∧
        middle.step asciiToUpperCase
          (.answer start.nextCall .otherError noonClock) = some after ∧
        after.finished = middle.finished ++
          [(.submitTaskOnChain "ms-1", .error "链上提交失败，请稍后重试")] :=
    ⟨_, _, _, rfl, rfl, rfl, rfl, rfl⟩
  obtain ⟨start, middle, after, hcreate, hfind, hrun, hstep, hfinished⟩ :=
    hexec
  have hfails : start.SubmissionFails asciiToUpperCase "ms-1" after :=
    .later hrun rfl hstep hfinished
  obtain ⟨next, hnext, hkept⟩ := (Workbench.failed_submission_keeps_iff
    hcreate (exec_nil start) hfind hfails).mpr (Or.inr rfl)
  exact ⟨start, after, next, hcreate, hfails, hnext, hkept⟩

/-- A task with its quorum is rejected and then submitted; the submitter
fails. -/
theorem failed_submission_loses_rejection :
    ∃ start before after task next,
      Workbench.create [readyTask] = .ok start ∧
        exec (Workbench.step asciiToUpperCase) start
          [.start (.rejectTask "ms-1" "carol") noonClock,
            .resume 0 noonClock] = some before ∧
        before.value.findTask "ms-1" = some task ∧
        before.SubmissionFails asciiToUpperCase "ms-1" after ∧
        after.value.findTask "ms-1" = some next ∧
        task.status = .rejected ∧ next.status = .ready := by
  have hexec : ∃ start before middle after task next,
      Workbench.create [readyTask] = .ok start ∧
        exec (Workbench.step asciiToUpperCase) start
          [.start (.rejectTask "ms-1" "carol") noonClock,
            .resume 0 noonClock] = some before ∧
        before.value.findTask "ms-1" = some task ∧
        exec (Workbench.step asciiToUpperCase) before
          [.start (.submitTaskOnChain "ms-1") noonClock] = some middle ∧
        middle.step asciiToUpperCase
          (.answer before.nextCall .otherError noonClock) = some after ∧
        after.finished = middle.finished ++
          [(.submitTaskOnChain "ms-1", .error "链上提交失败，请稍后重试")] ∧
        after.value.findTask "ms-1" = some next ∧
        task.status = .rejected ∧ next.status = .ready :=
    ⟨_, _, _, _, _, _, rfl, rfl, rfl, rfl, rfl, rfl, rfl, rfl, rfl⟩
  obtain ⟨start, before, middle, after, task, next, hcreate, hreach, hfind,
    hrun, hstep, hfinished, hnext, hstatus, hready⟩ := hexec
  exact ⟨start, before, after, task, next, hcreate, hreach, hfind,
    .later hrun rfl hstep hfinished, hnext, hstatus, hready⟩

end SoulonWallet.Multisig
