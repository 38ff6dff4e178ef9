import SoulonWallet.MultisigOverlap

/-!
# Calls that run alone

A call runs alone when no other label comes between its first turn and its
end.  For an import of offline signatures this file says what such a run does
on any task, well formed or not: it throws at the first signature that it would
accept when the task does not take approvals any more, and otherwise hands to
`updateTask` the task with all accepted signers moved.
-/

namespace SoulonWallet.Multisig

open LabelledRun SignerModel

namespace Workbench

/-- The run of the call from its start to its end, without a label of another
call. -/
def RunsAlone (toUpperCase : Utf16 → Utf16) (workbench : Workbench)
    (call : Call) (final : Workbench) : Prop :=
  ∃ clock labels,
    (∀ label ∈ labels, label.call = some workbench.nextCall) ∧
      exec (step toUpperCase) workbench (.start call clock :: labels) =
        some final ∧
      final.calls.lookup workbench.nextCall = none

variable {toUpperCase : Utf16 → Utf16} {workbench final : Workbench}
variable {call : Call} {id : ℕ} {turn : Turn} {labels : List Label}

theorem lookup_settle_self
    (workbench : Workbench) (id : ℕ) (call : Call) (turn : Turn) :
    (workbench.settle id call turn).calls.lookup id =
      match turn.next with
      | .ok (some inFlight) => some (call, inFlight)
      | _ => none := by
  cases hnext : turn.next with
  | error message =>
      simp only [settle, hnext]
      exact AList.lookup_erase _ _
  | ok later =>
      cases later with
      | none =>
          simp only [settle, hnext]
          exact AList.lookup_erase _ _
      | some inFlight =>
          simp only [settle, hnext]
          exact AList.lookup_insert _

theorem eq_of_ended
    (halone : ∀ label ∈ labels, label.call = some id)
    (hrun : exec (step toUpperCase) workbench labels = some final)
    (hended : workbench.calls.lookup id = none) :
    final = workbench := by
  cases labels with
  | nil => exact (Option.some.inj hrun).symm
  | cons label rest =>
      obtain ⟨next, hstep, -⟩ := exec_cons_eq_some.mp hrun
      have hlabel := halone label List.mem_cons_self
      rcases step_cases hstep with
        ⟨other, clock, rfl, -⟩ |
          ⟨other, otherCall, inFlight, turn, hother, hlookup, -⟩
      · cases hlabel
      · obtain rfl := Option.some.inj (hother.symm.trans hlabel)
        rw [hended] at hlookup
        cases hlookup

/-- A call in flight that runs alone goes on with a turn of its own. -/
theorem exists_turn_of_alone
    {inFlight : InFlight}
    (halone : ∀ label ∈ labels, label.call = some id)
    (hrun : exec (step toUpperCase) workbench labels = some final)
    (hlookup : workbench.calls.lookup id = some (call, inFlight))
    (hended : final.calls.lookup id = none) :
    ∃ turn rest,
      inFlight.Yields toUpperCase workbench.value turn ∧
        (∀ label ∈ rest, label.call = some id) ∧
        exec (step toUpperCase) (workbench.settle id call turn) rest =
          some final := by
  cases labels with
  | nil =>
      obtain rfl := Option.some.inj hrun
      rw [hlookup] at hended
      cases hended
  | cons label rest =>
      obtain ⟨next, hstep, hrest⟩ := exec_cons_eq_some.mp hrun
      obtain ⟨hlabel, hlater⟩ := List.forall_mem_cons.mp halone
      rcases step_cases hstep with
        ⟨other, clock, rfl, -⟩ |
          ⟨other, otherCall, otherFlight, turn, hother, hfound, hyields, rfl⟩
      · cases hlabel
      · obtain rfl := Option.some.inj (hother.symm.trans hlabel)
        rw [hlookup, Option.some.injEq, Prod.mk.injEq] at hfound
        obtain ⟨rfl, rfl⟩ := hfound
        exact ⟨turn, rest, hyields, hlater, hrest⟩

theorem RunsAlone.exists_start
    (hrun : RunsAlone toUpperCase workbench call final) :
    ∃ clock labels,
      (∀ label ∈ labels, label.call = some workbench.nextCall) ∧
        exec (step toUpperCase)
          ({ workbench with nextCall := workbench.nextCall + 1 }.settle
            workbench.nextCall call (call.start workbench.value clock))
          labels = some final ∧
        final.calls.lookup workbench.nextCall = none := by
  obtain ⟨clock, labels, halone, hexec, hended⟩ := hrun
  obtain ⟨next, hstep, hrest⟩ := exec_cons_eq_some.mp hexec
  obtain rfl := Option.some.inj hstep
  exact ⟨clock, labels, halone, hrest, hended⟩

/-- A turn that ends its call ends the run. -/
theorem eq_settle_of_ends
    (halone : ∀ label ∈ labels, label.call = some id)
    (hrun : exec (step toUpperCase) (workbench.settle id call turn) labels =
      some final)
    (hends : ∀ inFlight, turn.next ≠ .ok (some inFlight)) :
    final = workbench.settle id call turn := by
  refine eq_of_ended halone hrun ?_
  rw [lookup_settle_self]
  split
  next inFlight hnext => exact absurd hnext (hends inFlight)
  next => rfl

end Workbench

/-! ## The signatures of an import -/

def payloadLines (payload : Utf16) : List Utf16 :=
  (payload.splitLines.map Utf16.trim).filter fun item => !item.isEmpty

namespace MultisigTask

variable {toUpperCase : Utf16 → Utf16} {task current : MultisigTask}
variable {signers : List Utf16} {signer : Utf16}

/-- The pending signer whose signature of the task a line carries. -/
def signerOf (toUpperCase : Utf16 → Utf16) (task : MultisigTask)
    (line : Utf16) : Option Utf16 :=
  match parseLine line with
  | some (signer, signature, txDigest) =>
      if txDigest.getD "" ≠ "" ∧
          toUpperCase (txDigest.getD "") = toUpperCase task.txDigest ∧
          isSignatureFormatValid signature = true ∧
          signer ∈ task.pendingSigners then
        some signer
      else none
  | none => none

theorem signerOf_eq_some_iff
    {line : Utf16} :
    task.signerOf toUpperCase line = some signer ↔
      signer ∈ task.pendingSigners ∧
        ∃ signature txDigest,
          parseLine line = some (signer, signature, some txDigest) ∧
            txDigest ≠ "" ∧
            toUpperCase txDigest = toUpperCase task.txDigest ∧
            isSignatureFormatValid signature = true := by
  unfold signerOf
  constructor
  · intro hsigner
    split at hsigner
    next other signature txDigest hparse =>
      split at hsigner
      next hchecks =>
        obtain rfl := Option.some.inj hsigner
        obtain ⟨hnonempty, hdigest, hsignature, hpending⟩ := hchecks
        cases txDigest with
        | none => exact absurd rfl hnonempty
        | some text =>
            exact ⟨hpending, signature, text, hparse, hnonempty, hdigest,
              hsignature⟩
      next => cases hsigner
    next => cases hsigner
  · rintro ⟨hpending, signature, txDigest, hparse, hchecks⟩
    rw [hparse]
    exact if_pos ⟨hchecks.1, hchecks.2.1, hchecks.2.2, hpending⟩

/-- The task with the signers moved from pending to approved. -/
def approveAll (task : MultisigTask) (signers : List Utf16) :
    MultisigTask :=
  { task with
    pendingSigners := task.pendingSigners.filter fun item => item ∉ signers
    approvedSigners := task.approvedSigners ++ signers
    collectedSigners :=
      if signers = [] then task.collectedSigners
      else (task.approvedSigners ++ signers).length }

@[simp] theorem approveAll_nil (task : MultisigTask) :
    task.approveAll [] = task := by
  simp [approveAll]

/-- `current` is the task after the approvals of the signers. -/
structure Approves (task : MultisigTask) (signers : List Utf16)
    (current : MultisigTask) : Prop where
  eq : current =
    { task.approveAll signers with
      status := current.status
      updatedAt := current.updatedAt
      approvalLogs := current.approvalLogs }
  mutable_eq : current.isApprovalMutable = task.isApprovalMutable
  mutable : signers ≠ [] → task.isApprovalMutable = true

theorem Approves.refl (task : MultisigTask) : task.Approves [] task :=
  ⟨by simp, rfl, fun hne => absurd rfl hne⟩

theorem Approves.txDigest_eq
    (happroves : task.Approves signers current) :
    current.txDigest = task.txDigest := by
  rw [happroves.eq]
  rfl

theorem Approves.approved_eq
    (happroves : task.Approves signers current) :
    current.approvedSigners = task.approvedSigners ++ signers := by
  rw [happroves.eq]
  rfl

theorem Approves.mem_pending_iff
    (happroves : task.Approves signers current) :
    signer ∈ current.pendingSigners ↔
      signer ∈ task.pendingSigners ∧ signer ∉ signers := by
  rw [happroves.eq]
  simp [approveAll]

theorem Approves.wellFormed_iff
    (happroves : task.Approves signers current) :
    current.WellFormed ↔ (task.approveAll signers).WellFormed := by
  rw [happroves.eq]
  rfl

theorem Approves.merge
    (happroves : task.Approves signers current)
    (hmutable : task.isApprovalMutable = true)
    (hpending : signer ∈ current.pendingSigners)
    (source : Utf16) (signatureDigest : Option Utf16) (clock : Clock) :
    ∃ merged,
      current.mergeApproval signer source signatureDigest clock =
          .ok merged ∧
        task.Approves (signers ++ [signer]) merged := by
  have hcurrent : current.isApprovalMutable = true :=
    happroves.mutable_eq.trans hmutable
  have hfilter : (current.pendingSigners.filter fun item => item != signer) =
      (task.approveAll (signers ++ [signer])).pendingSigners := by
    rw [happroves.eq]
    simp only [approveAll, List.filter_filter]
    apply List.filter_congr
    intro item _
    by_cases hsame : item = signer
    · simp [hsame]
    · simp [hsame]
  unfold mergeApproval
  rw [if_neg (not_not.mpr hcurrent), if_neg (not_not.mpr hpending)]
  refine ⟨_, rfl, ?_, ?_, fun _ => hmutable⟩
  · rw [hfilter, happroves.eq]
    simp [approveAll]
  · rw [hmutable]
    dsimp only [isApprovalMutable]
    split <;> rfl

end MultisigTask

/-! ## The lines of an import -/

namespace OfflineImport

variable {toUpperCase : Utf16 → Utf16} {task : MultisigTask}
variable {signers : List Utf16} {signer : Utf16} {offline : OfflineImport}

/-- Before `line` the import has accepted the signers. -/
structure Progress (task : MultisigTask) (signers : List Utf16)
    (offline : OfflineImport) : Prop where
  approves : task.Approves signers offline.currentTask
  seen : ∀ signer, signer ∈ offline.seenSigners ↔ signer ∈ signers
  accepted : ((offline.entries.filter fun entry => entry.accepted).map
    fun entry => entry.signer) = signers

/-- A line is refused when it carries no signature for the task, or that of a
signer who was accepted before. -/
theorem Progress.handleLine_old
    (hprogress : offline.Progress task signers) (clock : Clock)
    (hold : ∀ signer,
      task.signerOf toUpperCase offline.line = some signer →
        signer ∈ signers) :
    ∃ signer signature message,
      offline.handleLine toUpperCase clock =
        .ok (offline.refuse signer signature message) := by
  unfold handleLine
  split
  · exact ⟨_, _, _, rfl⟩
  next signer signature txDigest hparse =>
    split
    · exact ⟨_, _, _, rfl⟩
    next hseen =>
      split
      · exact ⟨_, _, _, rfl⟩
      next hnonempty =>
        split
        · exact ⟨_, _, _, rfl⟩
        next hdigest =>
          split
          · exact ⟨_, _, _, rfl⟩
          next hsignature =>
            split
            · exact ⟨_, _, _, rfl⟩
            next hpending =>
              rw [hprogress.approves.txDigest_eq, not_not] at hdigest
              rw [not_not] at hsignature hpending
              have hread : task.signerOf toUpperCase offline.line =
                  some signer := by
                unfold MultisigTask.signerOf
                rw [hparse]
                exact if_pos ⟨hnonempty, hdigest, hsignature,
                  (hprogress.approves.mem_pending_iff.mp hpending).1⟩
              exact absurd ((hprogress.seen signer).mpr (hold signer hread))
                hseen

/-- The entry of an accepted signature. -/
def accept (signer signature : Utf16) : OfflineSignatureEntry where
  signer := signer
  signatureDigest := digest signature
  accepted := true
  message := "合并验证通过，已计入阈值进度"

theorem Progress.handleLine_new
    (hprogress : offline.Progress task signers) (clock : Clock)
    (hread : task.signerOf toUpperCase offline.line = some signer)
    (hnew : signer ∉ signers) :
    ∃ signature,
      offline.handleLine toUpperCase clock =
        match offline.currentTask.mergeApproval signer "离线导入"
            (some (digest signature)) clock with
        | .error message => .error message
        | .ok merged =>
            .ok (merged, insert signer offline.seenSigners,
              accept signer signature) := by
  obtain ⟨hpending, signature, txDigest, hparse, hnonempty, hdigest,
    hsignature⟩ := MultisigTask.signerOf_eq_some_iff.mp hread
  have hseen : signer ∉ offline.seenSigners :=
    fun hmem => hnew ((hprogress.seen signer).mp hmem)
  have hcurrent : signer ∈ offline.currentTask.pendingSigners :=
    hprogress.approves.mem_pending_iff.mpr ⟨hpending, hnew⟩
  have hsame : toUpperCase txDigest =
      toUpperCase offline.currentTask.txDigest := by
    rw [hdigest, hprogress.approves.txDigest_eq]
  refine ⟨signature, ?_⟩
  unfold handleLine
  rw [hparse]
  simp only [hseen, hcurrent, hsignature, hnonempty, hsame, if_false,
    Option.getD_some, ne_eq, not_true_eq_false]
  rfl

/-- A new signature is merged as long as the task takes approvals. -/
theorem Progress.handleLine_accepts
    (hprogress : offline.Progress task signers) (clock : Clock)
    (hread : task.signerOf toUpperCase offline.line = some signer)
    (hnew : signer ∉ signers) (hmutable : task.isApprovalMutable = true) :
    ∃ signature merged,
      offline.handleLine toUpperCase clock =
          .ok (merged, insert signer offline.seenSigners,
            accept signer signature) ∧
        task.Approves (signers ++ [signer]) merged := by
  obtain ⟨signature, hline⟩ := hprogress.handleLine_new clock hread hnew
  have hpending := (MultisigTask.signerOf_eq_some_iff.mp hread).1
  obtain ⟨merged, hmerge, happroves⟩ := hprogress.approves.merge hmutable
    (hprogress.approves.mem_pending_iff.mpr ⟨hpending, hnew⟩) "离线导入"
    (some (digest signature)) clock
  rw [hmerge] at hline
  exact ⟨signature, merged, hline, happroves⟩

theorem Progress.handleLine_throws
    (hprogress : offline.Progress task signers) (clock : Clock)
    (hread : task.signerOf toUpperCase offline.line = some signer)
    (hnew : signer ∉ signers) (hfixed : task.isApprovalMutable = false) :
    ∃ message, offline.handleLine toUpperCase clock = .error message := by
  obtain ⟨signature, hline⟩ := hprogress.handleLine_new clock hread hnew
  have hcurrent : ¬ offline.currentTask.isApprovalMutable = true := by
    rw [hprogress.approves.mutable_eq, hfixed]
    exact Bool.false_ne_true
  rw [MultisigTask.mergeApproval, if_pos hcurrent] at hline
  exact ⟨_, hline⟩

/-- What `importLine` hands on to the next line. -/
def next (offline : OfflineImport) (line : Utf16) (rest : List Utf16)
    (handled : MultisigTask × Finset Utf16 × OfflineSignatureEntry) :
    OfflineImport :=
  { offline with
    index := offline.index + 1
    line
    rest
    entries := offline.entries ++ [handled.2.2]
    seenSigners := handled.2.1
    currentTask := handled.1 }

/-- One line: the signers that were accepted grow by what it carries. -/
theorem Progress.handleLine
    (hprogress : offline.Progress task signers) (clock : Clock)
    (toUpperCase : Utf16 → Utf16) :
    (task.isApprovalMutable = false ∧
        newSigners (task.signerOf toUpperCase) signers [offline.line] ≠ [] ∧
        ∃ message, offline.handleLine toUpperCase clock = .error message) ∨
      ∃ handled, offline.handleLine toUpperCase clock = .ok handled ∧
        ∀ line rest, (offline.next line rest handled).Progress task (signers ++
          newSigners (task.signerOf toUpperCase) signers [offline.line]) := by
  by_cases hold : ∀ signer,
      task.signerOf toUpperCase offline.line = some signer → signer ∈ signers
  · obtain ⟨signer, signature, message, hline⟩ :=
      hprogress.handleLine_old clock hold
    refine Or.inr ⟨_, hline, fun line rest => ?_⟩
    rw [newSigners_cons_old [] hold, newSigners, List.append_nil]
    refine ⟨hprogress.approves, hprogress.seen, ?_⟩
    rw [← hprogress.accepted]
    simp [next, refuse]
  · push Not at hold
    obtain ⟨signer, hread, hnew⟩ := hold
    rw [newSigners_cons_new [] hread hnew, newSigners]
    cases hmutable : task.isApprovalMutable with
    | false =>
        exact Or.inl ⟨rfl, List.cons_ne_nil _ _,
          hprogress.handleLine_throws clock hread hnew hmutable⟩
    | true =>
        obtain ⟨signature, merged, hline, happroves⟩ :=
          hprogress.handleLine_accepts clock hread hnew hmutable
        refine Or.inr ⟨_, hline, fun line rest => ⟨happroves, ?_, ?_⟩⟩
        · intro other
          rw [next, Finset.mem_insert, hprogress.seen, List.mem_append,
            List.mem_singleton, or_comm]
        · rw [← hprogress.accepted]
          simp [next, accept]

end OfflineImport

/-! ## Turns that end their call -/

namespace WorkbenchState

variable {value : WorkbenchState}

theorem updateTask_throws
    {task : MultisigTask} (hmodel : ¬ task.WellFormed)
    (value : WorkbenchState) (returned : WorkbenchState → Turn)
    (thrown : Utf16 → Turn) :
    ∃ message, value.updateTask task returned thrown =
      { thrown message with writes := task :: (thrown message).writes } := by
  cases hcheck : task.assertTaskModel with
  | ok checked =>
      exact absurd (MultisigTask.assertTaskModel_eq_ok_iff.mp hcheck) hmodel
  | error message => exact ⟨message, by simp [updateTask, hcheck]⟩

theorem updateTask_last
    {task : MultisigTask} {returned : WorkbenchState → Turn}
    {thrown : Utf16 → Turn}
    (hreturned : ∀ value inFlight,
      (returned value).next ≠ .ok (some inFlight))
    (hthrown : ∀ message inFlight,
      (thrown message).next ≠ .ok (some inFlight))
    (inFlight : InFlight) :
    (value.updateTask task returned thrown).next ≠ .ok (some inFlight) := by
  unfold updateTask
  cases task.assertTaskModel with
  | ok checked => exact hreturned _ inFlight
  | error message => exact hthrown message inFlight

theorem throws_last
    (value : WorkbenchState) (message : Utf16) (inFlight : InFlight) :
    (value.throws message).next ≠ .ok (some inFlight) := by
  simp [throws]

theorem returns_last
    (value : WorkbenchState) (inFlight : InFlight) :
    value.returns.next ≠ .ok (some inFlight) := by
  simp [returns]

theorem failSubmission_last
    (value : WorkbenchState) (task : MultisigTask) (updatedAt : DateTime)
    (message : Utf16) (inFlight : InFlight) :
    (value.failSubmission task updatedAt message).next ≠
      .ok (some inFlight) :=
  updateTask_last (fun value => value.idle.throws_last message)
    value.throws_last inFlight

theorem finishSubmission_last
    (value : WorkbenchState) (task : MultisigTask) (startedAt : DateTime)
    (receipt : MultisigOnChainReceipt) (clock : Clock)
    (inFlight : InFlight) :
    (value.finishSubmission task startedAt receipt clock).next ≠
      .ok (some inFlight) := by
  unfold finishSubmission
  dsimp only
  exact updateTask_last (fun value => returns_last _)
    (value.failSubmission_last task clock.second) inFlight

theorem importLine_last
    {toUpperCase : Utf16 → Utf16} {offline : OfflineImport}
    (hlast : offline.rest = []) (value : WorkbenchState) (clock : Clock)
    (inFlight : InFlight) :
    (value.importLine toUpperCase offline clock).next ≠
      .ok (some inFlight) := by
  unfold importLine
  cases offline.handleLine toUpperCase clock with
  | error message => exact value.throws_last message inFlight
  | ok handled =>
      rw [hlast]
      exact updateTask_last (fun value => returns_last _)
        (throws_last _) inFlight

/-- A line that is not the last one leaves the tasks and the flag. -/
theorem importLine_awaits
    {toUpperCase : Utf16 → Utf16} {offline : OfflineImport} {clock : Clock}
    {handled : MultisigTask × Finset Utf16 × OfflineSignatureEntry}
    {line : Utf16} {rest : List Utf16}
    (hline : offline.handleLine toUpperCase clock = .ok handled)
    (hrest : offline.rest = line :: rest) (value : WorkbenchState) :
    ∃ next : WorkbenchState,
      value.importLine toUpperCase offline clock =
          next.awaits (.importing (offline.next line rest handled)) ∧
        next.tasks = value.tasks ∧ next.processing = value.processing := by
  unfold importLine
  rw [hline, hrest]
  exact ⟨_, rfl, rfl, rfl⟩

end WorkbenchState

/-- Only an import goes on after a later turn. -/
theorem InFlight.Yields.last
    {toUpperCase : Utf16 → Utf16} {value : WorkbenchState}
    {inFlight : InFlight} {turn : Turn}
    (hyields : inFlight.Yields toUpperCase value turn)
    (hother : ∀ offline, inFlight ≠ .importing offline)
    (later : InFlight) :
    turn.next ≠ .ok (some later) := by
  cases inFlight with
  | importing offline => exact absurd rfl (hother offline)
  | approving task signer =>
      rcases hyields with ⟨clock, hresume⟩ | ⟨outcome, clock, hanswer⟩
      · obtain rfl := Option.some.inj hresume
        unfold WorkbenchState.finishApproval
        cases task.mergeApproval signer "在线审批" none clock with
        | error message => exact WorkbenchState.throws_last _ _ _
        | ok updated =>
            exact WorkbenchState.updateTask_last
              (fun value => WorkbenchState.returns_last _)
              (WorkbenchState.throws_last _) later
      · cases hanswer
  | rejecting task signer =>
      rcases hyields with ⟨clock, hresume⟩ | ⟨outcome, clock, hanswer⟩
      · obtain rfl := Option.some.inj hresume
        exact WorkbenchState.updateTask_last
          (fun value => WorkbenchState.returns_last _)
          (WorkbenchState.throws_last _) later
      · cases hanswer
  | submitting task startedAt =>
      rcases hyields with ⟨clock, hresume⟩ | ⟨outcome, clock, hanswer⟩
      · cases hresume
      · cases outcome with
        | receipt receipt =>
            obtain rfl := Option.some.inj hanswer
            exact WorkbenchState.finishSubmission_last _ _ _ _ _ later
        | apiClientException message | formatException message
        | otherError =>
            obtain rfl := Option.some.inj hanswer
            exact WorkbenchState.failSubmission_last _ _ _ _ later

/-! ## An import to its end -/

namespace Workbench

/-- How an import that accepts the signers on `count` lines ends: it throws
and leaves the store busy, or it writes the task with the entries. -/
inductive ImportEnds (workbench : Workbench) (call : Call)
    (task : MultisigTask) (signers : List Utf16) (count : ℕ)
    (final : Workbench) : Prop
  | throws (message : Utf16)
      (hrefused : (task.isApprovalMutable = false ∧ signers ≠ []) ∨
        ¬ (task.approveAll signers).WellFormed)
      (htasks : final.value.tasks = workbench.value.tasks)
      (hprocessing : final.value.processing = workbench.value.processing)
      (hfinished : final.finished =
        workbench.finished ++ [(call, .error message)])
  | writes (written : MultisigTask) (entries : List OfflineSignatureEntry)
      (happroves : task.Approves signers written)
      (hmodel : (task.approveAll signers).WellFormed)
      (hlength : entries.length = count)
      (haccepted : ((entries.filter fun entry => entry.accepted).map
        fun entry => entry.signer) = signers)
      (htasks : final.value.tasks = (workbench.value.withTask
        { written with lastImportEntries := entries }).tasks)
      (hprocessing : final.value.processing = false)
      (hfinished : final.finished = workbench.finished ++ [(call, .ok ())])

variable {toUpperCase : Utf16 → Utf16} {workbench final : Workbench}
variable {call : Call} {id : ℕ} {labels : List Label}
variable {task : MultisigTask} {signers : List Utf16}
variable {offline : OfflineImport}

theorem ImportEnds.congr
    {other : Workbench} {count : ℕ}
    (hends : other.ImportEnds call task signers count final)
    (htasks : other.value.tasks = workbench.value.tasks)
    (hprocessing : other.value.processing = workbench.value.processing)
    (hfinished : other.finished = workbench.finished) :
    workbench.ImportEnds call task signers count final := by
  cases hends with
  | throws message hrefused htasks' hprocessing' hfinished' =>
      exact .throws message hrefused (htasks'.trans htasks)
        (hprocessing'.trans hprocessing) (by rw [hfinished', hfinished])
  | writes written entries happroves hmodel hlength haccepted htasks'
      hprocessing' hfinished' =>
      refine .writes written entries happroves hmodel hlength haccepted ?_
        hprocessing' (by rw [hfinished', hfinished])
      simp only [htasks', WorkbenchState.withTask, htasks]

/-- After its last line an import writes the task if the model of the task
allows it. -/
theorem importEnds_of_lastLine
    {clock : Clock}
    {handled : MultisigTask × Finset Utf16 × OfflineSignatureEntry}
    (hprogress : (offline.next "" [] handled).Progress task signers)
    (hline : offline.handleLine toUpperCase clock = .ok handled)
    (hlast : offline.rest = []) :
    workbench.ImportEnds call task signers (offline.entries.length + 1)
      (workbench.settle id call
        (workbench.value.importLine toUpperCase offline clock)) := by
  have hmodel := hprogress.approves.wellFormed_iff
  by_cases hwritten : handled.1.WellFormed
  · refine .writes handled.1 (offline.entries ++ [handled.2.2])
      hprogress.approves (hmodel.mp hwritten) (by simp) hprogress.accepted
      ?_ ?_ ?_
    all_goals
      simp only [settle, WorkbenchState.importLine, hline, hlast]
      rw [WorkbenchState.updateTask_eq (by exact hwritten)]
      rfl
  · unfold WorkbenchState.importLine
    simp only [hline, hlast]
    have hrefused : ¬ MultisigTask.WellFormed
        { handled.1 with
          lastImportEntries := offline.entries ++ [handled.2.2] } :=
      hwritten
    obtain ⟨message, hthrows⟩ :=
      WorkbenchState.updateTask_throws hrefused _ _ _
    rw [hthrows]
    exact .throws message (Or.inr fun hall => hwritten (hmodel.mpr hall))
      rfl rfl rfl

theorem importEnds_of_thrown
    {clock : Clock} {message : Utf16}
    (hline : offline.handleLine toUpperCase clock = .error message)
    (hfixed : task.isApprovalMutable = false) (hsigners : signers ≠ [])
    (count : ℕ) :
    workbench.ImportEnds call task signers count
      (workbench.settle id call
        (workbench.value.importLine toUpperCase offline clock)) := by
  unfold WorkbenchState.importLine
  rw [hline]
  exact .throws message (Or.inl ⟨hfixed, hsigners⟩) rfl rfl rfl

theorem yields_importing
    {value : WorkbenchState} {turn : Turn}
    (hyields : (InFlight.importing offline).Yields toUpperCase value turn) :
    ∃ clock, turn = value.importLine toUpperCase offline clock := by
  rcases hyields with ⟨clock, hresume⟩ | ⟨outcome, clock, hanswer⟩
  · exact ⟨clock, (Option.some.inj hresume).symm⟩
  · cases hanswer

/-- An import that runs alone handles its lines one after the other. -/
theorem importEnds_of_alone
    (hprogress : offline.Progress task signers)
    (hlookup : workbench.calls.lookup id = some (call, .importing offline))
    (halone : ∀ label ∈ labels, label.call = some id)
    (hrun : exec (step toUpperCase) workbench labels = some final)
    (hended : final.calls.lookup id = none) :
    workbench.ImportEnds call task
      (signers ++ newSigners (task.signerOf toUpperCase) signers
        (offline.line :: offline.rest))
      (offline.entries.length + (offline.rest.length + 1)) final := by
  induction hrest : offline.rest
    generalizing offline signers workbench labels with
  | nil =>
      obtain ⟨turn, later, hyields, hlater, hexec⟩ :=
        exists_turn_of_alone halone hrun hlookup hended
      obtain ⟨clock, rfl⟩ := yields_importing hyields
      rcases hprogress.handleLine clock toUpperCase with
        ⟨hfixed, hnew, message, hline⟩ | ⟨handled, hline, hnext⟩
      · rw [eq_settle_of_ends hlater hexec ?_]
        · exact importEnds_of_thrown hline hfixed
            (List.append_ne_nil_of_right_ne_nil _ hnew) _
        · simp [WorkbenchState.importLine, hline, WorkbenchState.throws]
      · rw [eq_settle_of_ends hlater hexec
          (WorkbenchState.importLine_last hrest workbench.value clock)]
        exact importEnds_of_lastLine (hnext "" []) hline hrest
  | cons line rest ih =>
      obtain ⟨turn, later, hyields, hlater, hexec⟩ :=
        exists_turn_of_alone halone hrun hlookup hended
      obtain ⟨clock, rfl⟩ := yields_importing hyields
      rw [newSigners_cons, ← List.append_assoc]
      rcases hprogress.handleLine clock toUpperCase with
        ⟨hfixed, hnew, message, hline⟩ | ⟨handled, hline, hnext⟩
      · rw [eq_settle_of_ends hlater hexec ?_]
        · exact importEnds_of_thrown hline hfixed
            (List.append_ne_nil_of_left_ne_nil
              (List.append_ne_nil_of_right_ne_nil _ hnew) _) _
        · simp [WorkbenchState.importLine, hline, WorkbenchState.throws]
      · obtain ⟨next, hturn, htasks, hprocessing⟩ :=
          WorkbenchState.importLine_awaits hline hrest workbench.value
        rw [hturn] at hexec
        have hfound : (workbench.settle id call (next.awaits (.importing
            (offline.next line rest handled)))).calls.lookup id =
              some (call, .importing (offline.next line rest handled)) :=
          lookup_settle_self _ _ _ _
        have hends := ih (hnext line rest) hfound hlater hexec rfl
        have hcount : (offline.next line rest handled).entries.length +
            (rest.length + 1) =
              offline.entries.length + ((line :: rest).length + 1) := by
          simp only [OfflineImport.next, List.length_append,
            List.length_cons, List.length_nil]
          omega
        rw [hcount] at hends
        exact hends.congr htasks hprocessing rfl

/-- The whole import, with the lines of its payload. -/
theorem RunsAlone.importEnds
    {taskId payload : Utf16}
    (hfind : workbench.value.findTask taskId = some task)
    (hlines : payloadLines payload ≠ [])
    (hrun : RunsAlone toUpperCase workbench
      (.importOfflineSignatures taskId payload) final) :
    ({ workbench with value := workbench.value.startImport } :
        Workbench).ImportEnds (.importOfflineSignatures taskId payload) task
      (newSigners (task.signerOf toUpperCase) [] (payloadLines payload))
      (payloadLines payload).length final := by
  obtain ⟨clock, labels, halone, hexec, hended⟩ := hrun.exists_start
  obtain ⟨line, rest, hpayload⟩ := List.exists_cons_of_ne_nil hlines
  have hstart : Call.start workbench.value clock
      (.importOfflineSignatures taskId payload) =
        workbench.value.startImport.awaits
          (.importing (OfflineImport.first task line rest)) := by
    simp only [payloadLines] at hpayload
    simp only [Call.start, WorkbenchState.importOfflineSignatures, hfind,
      hpayload]
    rfl
  rw [hstart] at hexec
  have hprogress : (OfflineImport.first task line rest).Progress task [] :=
    ⟨.refl task, by simp [OfflineImport.first], rfl⟩
  have hends := importEnds_of_alone hprogress (lookup_settle_self _ _ _ _)
    halone hexec hended
  have hcount : (OfflineImport.first task line rest).entries.length +
      ((OfflineImport.first task line rest).rest.length + 1) =
        (payloadLines payload).length := by
    rw [hpayload, List.length_cons]
    exact Nat.zero_add _
  rw [hcount, List.nil_append] at hends
  rw [hpayload] at hends ⊢
  exact hends.congr rfl rfl rfl

/-! ## Every call ends -/

/-- The call can go on alone until it has ended. -/
def CanEnd (toUpperCase : Utf16 → Utf16) (workbench : Workbench) (id : ℕ) :
    Prop :=
  ∃ labels final,
    (∀ label ∈ labels, label.call = some id) ∧
      exec (step toUpperCase) workbench labels = some final ∧
      final.calls.lookup id = none

theorem canEnd_of_step
    {next : Workbench} {label : Label} (hlabel : label.call = some id)
    (hstep : workbench.step toUpperCase label = some next)
    (hnext : CanEnd toUpperCase next id) :
    CanEnd toUpperCase workbench id := by
  obtain ⟨labels, final, halone, hrun, hended⟩ := hnext
  exact ⟨label :: labels, final, List.forall_mem_cons.mpr ⟨hlabel, halone⟩,
    exec_cons_eq_some.mpr ⟨next, hstep, hrun⟩, hended⟩

theorem canEnd_settle_of_ends
    {turn : Turn} (hends : ∀ inFlight, turn.next ≠ .ok (some inFlight)) :
    CanEnd toUpperCase (workbench.settle id call turn) id := by
  refine ⟨[], _, by simp, rfl, ?_⟩
  rw [lookup_settle_self]
  split
  next inFlight hnext => exact absurd hnext (hends inFlight)
  next => rfl

theorem canEnd_importing
    (hlookup : workbench.calls.lookup id = some (call, .importing offline))
    (clock : Clock) :
    CanEnd toUpperCase workbench id := by
  induction hrest : offline.rest generalizing offline workbench with
  | nil =>
      have hstep : workbench.step toUpperCase (.resume id clock) =
          some (workbench.settle id call
            (workbench.value.importLine toUpperCase offline clock)) := by
        simp [step, hlookup, InFlight.resume]
      exact canEnd_of_step rfl hstep (canEnd_settle_of_ends
        (WorkbenchState.importLine_last hrest workbench.value clock))
  | cons line rest ih =>
      have hstep : workbench.step toUpperCase (.resume id clock) =
          some (workbench.settle id call
            (workbench.value.importLine toUpperCase offline clock)) := by
        simp [step, hlookup, InFlight.resume]
      refine canEnd_of_step rfl hstep ?_
      cases hline : offline.handleLine toUpperCase clock with
      | error message =>
          apply canEnd_settle_of_ends
          simp [WorkbenchState.importLine, hline, WorkbenchState.throws]
      | ok handled =>
          obtain ⟨next, hturn, -, -⟩ :=
            WorkbenchState.importLine_awaits hline hrest workbench.value
          rw [hturn]
          exact ih (lookup_settle_self _ _ _ _) rfl

theorem canEnd_of_lookup
    {inFlight : InFlight}
    (hlookup : workbench.calls.lookup id = some (call, inFlight))
    (clock : Clock) :
    CanEnd toUpperCase workbench id := by
  have hlast : ∀ label turn, label.call = some id →
      workbench.step toUpperCase label =
        some (workbench.settle id call turn) →
      inFlight.Yields toUpperCase workbench.value turn →
      (∀ offline, inFlight ≠ .importing offline) →
      CanEnd toUpperCase workbench id := by
    intro label turn hlabel hstep hyields hother
    exact canEnd_of_step hlabel hstep
      (canEnd_settle_of_ends (hyields.last hother))
  cases inFlight with
  | importing offline => exact canEnd_importing hlookup clock
  | approving task signer =>
      refine hlast (.resume id clock)
        (workbench.value.finishApproval task signer clock) rfl ?_
        (Or.inl ⟨clock, rfl⟩) (by simp)
      simp [step, hlookup, InFlight.resume]
  | rejecting task signer =>
      refine hlast (.resume id clock)
        (workbench.value.finishRejection task signer clock) rfl ?_
        (Or.inl ⟨clock, rfl⟩) (by simp)
      simp [step, hlookup, InFlight.resume]
  | submitting task startedAt =>
      refine hlast (.answer id .otherError clock)
        (workbench.value.failSubmission task clock.first
          "链上提交失败，请稍后重试") rfl ?_
        (Or.inr ⟨.otherError, clock, rfl⟩) (by simp)
      simp [step, hlookup, InFlight.answer]

theorem exists_runsAlone
    (toUpperCase : Utf16 → Utf16) (workbench : Workbench) (call : Call)
    (clock : Clock) :
    ∃ final, RunsAlone toUpperCase workbench call final := by
  have hcan : CanEnd toUpperCase
      ({ workbench with nextCall := workbench.nextCall + 1 }.settle
        workbench.nextCall call (call.start workbench.value clock))
      workbench.nextCall := by
    cases hnext : (call.start workbench.value clock).next with
    | error message =>
        apply canEnd_settle_of_ends
        simp [hnext]
    | ok waiting =>
        cases waiting with
        | none =>
            apply canEnd_settle_of_ends
            simp [hnext]
        | some inFlight =>
            have hlookup := lookup_settle_self
              { workbench with nextCall := workbench.nextCall + 1 }
              workbench.nextCall call (call.start workbench.value clock)
            rw [hnext] at hlookup
            exact canEnd_of_lookup hlookup clock
  obtain ⟨labels, final, halone, hrun, hended⟩ := hcan
  exact ⟨final, clock, labels, halone,
    exec_cons_eq_some.mpr ⟨_, rfl, hrun⟩, hended⟩

end Workbench

end SoulonWallet.Multisig
