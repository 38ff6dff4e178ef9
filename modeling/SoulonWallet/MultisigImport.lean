import SoulonWallet.MultisigAlone

/-!
# Importing offline signatures

An import that runs alone on a task that takes approvals adds to the approved
signers exactly those pending ones of whom some line has a valid signature of
the task.  Neither the order of the lines nor a second import of the same text
makes a difference to them.  A line without a digest is refused also when the
task has none.
-/

namespace SoulonWallet.Multisig

open LabelledRun SignerModel

namespace MultisigTask

variable {toUpperCase : Utf16 → Utf16} {task next : MultisigTask}
variable {payload : Utf16} {signer : Utf16}

/-- A line of the text has the signer, a well-formed signature and the digest
of the task, in any case. -/
def SignedIn (toUpperCase : Utf16 → Utf16) (task : MultisigTask)
    (payload signer : Utf16) : Prop :=
  ∃ line ∈ payloadLines payload, ∃ signature txDigest,
    parseLine line = some (signer, signature, some txDigest) ∧
      txDigest ≠ "" ∧ toUpperCase txDigest = toUpperCase task.txDigest ∧
      isSignatureFormatValid signature = true

/-- The task after an import of the text. -/
structure ImportedFrom (toUpperCase : Utf16 → Utf16) (task : MultisigTask)
    (payload : Utf16) (next : MultisigTask) : Prop where
  approved : ∀ signer, signer ∈ next.approvedSigners ↔
    signer ∈ task.approvedSigners ∨
      signer ∈ task.pendingSigners ∧ task.SignedIn toUpperCase payload signer
  entries : next.lastImportEntries.length = (payloadLines payload).length
  accepted : ∀ signer,
    (next.lastImportEntries.countP fun entry =>
        entry.accepted && entry.signer == signer) =
      if signer ∈ next.approvedSigners ∧ signer ∉ task.approvedSigners
        then 1 else 0

/-- The signers that an import of the text approves. -/
def newlySigned (toUpperCase : Utf16 → Utf16) (task : MultisigTask)
    (payload : Utf16) : List Utf16 :=
  newSigners (task.signerOf toUpperCase) [] (payloadLines payload)

theorem mem_newlySigned_iff :
    signer ∈ task.newlySigned toUpperCase payload ↔
      signer ∈ task.pendingSigners ∧
        task.SignedIn toUpperCase payload signer := by
  rw [newlySigned, mem_newSigners_iff]
  constructor
  · rintro ⟨-, line, hline, hsigner⟩
    obtain ⟨hpending, hsigned⟩ := signerOf_eq_some_iff.mp hsigner
    exact ⟨hpending, line, hline, hsigned⟩
  · rintro ⟨hpending, line, hline, hsigned⟩
    exact ⟨List.not_mem_nil, line, hline,
      signerOf_eq_some_iff.mpr ⟨hpending, hsigned⟩⟩

theorem nodup_newlySigned :
    (task.newlySigned toUpperCase payload).Nodup :=
  nodup_newSigners _ _ _

theorem WellFormed.approveAll
    {signers : List Utf16} (hmodel : task.WellFormed)
    (hnodup : signers.Nodup)
    (hsigners : ∀ signer ∈ signers, signer ∈ task.pendingSigners) :
    (task.approveAll signers).WellFormed := by
  have happroved := SignerModel.approveAll hmodel hnodup hsigners
  by_cases hnone : signers = []
  · subst hnone
    simpa using hmodel
  · rw [WellFormed, MultisigTask.approveAll, if_neg hnone]
    exact happroved

theorem WellFormed.approveAll_newlySigned
    (hmodel : task.WellFormed) (toUpperCase : Utf16 → Utf16)
    (payload : Utf16) :
    (task.approveAll (task.newlySigned toUpperCase payload)).WellFormed :=
  hmodel.approveAll nodup_newlySigned
    fun _ hsigner => (mem_newlySigned_iff.mp hsigner).1

end MultisigTask

theorem WorkbenchState.findTask_withTask
    {value : WorkbenchState} {taskId : Utf16} {task written : MultisigTask}
    (hfind : value.findTask taskId = some task) (hid : written.id = taskId) :
    (value.withTask written).findTask taskId = some written := by
  subst hid
  simp only [findTask, withTask] at hfind ⊢
  generalize value.tasks = tasks at hfind ⊢
  induction tasks with
  | nil => simp at hfind
  | cons item rest ih =>
      by_cases hitem : item.id = written.id
      · simp [hitem]
      · simp only [List.find?_cons, hitem, decide_false] at hfind
        simpa [hitem] using ih hfind

namespace Workbench

variable {toUpperCase : Utf16 → Utf16} {workbench final : Workbench}
variable {taskId payload : Utf16} {task : MultisigTask}

/-- A text without lines is refused. -/
theorem RunsAlone.eq_of_blank
    (hlines : payloadLines payload = [])
    (hrun : RunsAlone toUpperCase workbench
      (.importOfflineSignatures taskId payload) final) :
    final.value = workbench.value := by
  obtain ⟨clock, labels, halone, hexec, hended⟩ := hrun.exists_start
  have hstart : ∃ message,
      Call.start workbench.value clock
        (.importOfflineSignatures taskId payload) =
          workbench.value.throws message := by
    simp only [payloadLines] at hlines
    simp only [Call.start, WorkbenchState.importOfflineSignatures, hlines]
    split
    · exact ⟨_, rfl⟩
    · exact ⟨_, rfl⟩
  obtain ⟨message, hstart⟩ := hstart
  rw [hstart] at hexec
  rw [eq_settle_of_ends halone hexec (WorkbenchState.throws_last _ message)]
  rfl

/-- The task that an import of at least one line leaves in the store. -/
theorem RunsAlone.exists_imported
    (hfind : workbench.value.findTask taskId = some task)
    (hmodel : task.WellFormed) (hmutable : task.isApprovalMutable = true)
    (hlines : payloadLines payload ≠ [])
    (hrun : RunsAlone toUpperCase workbench
      (.importOfflineSignatures taskId payload) final) :
    ∃ written entries,
      task.Approves (task.newlySigned toUpperCase payload) written ∧
        final.value.findTask taskId =
          some { written with lastImportEntries := entries } ∧
        entries.length = (payloadLines payload).length ∧
        ((entries.filter fun entry => entry.accepted).map
          fun entry => entry.signer) =
            task.newlySigned toUpperCase payload := by
  cases hrun.importEnds hfind hlines with
  | throws message hrefused =>
      rcases hrefused with ⟨hfixed, -⟩ | hmodel'
      · rw [hmutable] at hfixed
        cases hfixed
      · exact absurd (hmodel.approveAll_newlySigned toUpperCase payload)
          hmodel'
  | writes written entries happroves _ hlength haccepted htasks =>
      refine ⟨written, entries, happroves, ?_, hlength, haccepted⟩
      have hid : ({ written with
          lastImportEntries := entries } : MultisigTask).id = taskId := by
        rw [happroves.eq]
        exact (WorkbenchState.mem_tasks_of_findTask hfind).2
      have hstarted : workbench.value.startImport.findTask taskId =
          some task := hfind
      rw [← WorkbenchState.findTask_withTask hstarted hid]
      exact congrArg (List.find? fun task => task.id = taskId) htasks

end Workbench

namespace MultisigTask

variable {toUpperCase : Utf16 → Utf16} {task written : MultisigTask}
variable {payload : Utf16} {entries : List OfflineSignatureEntry}

theorem Approves.importedFrom
    (happroves : task.Approves (task.newlySigned toUpperCase payload) written)
    (hmodel : task.WellFormed)
    (hlength : entries.length = (payloadLines payload).length)
    (haccepted : ((entries.filter fun entry => entry.accepted).map
      fun entry => entry.signer) = task.newlySigned toUpperCase payload) :
    task.ImportedFrom toUpperCase payload
      { written with lastImportEntries := entries } where
  approved := by
    intro signer
    rw [← mem_newlySigned_iff, ← List.mem_append, ← happroves.approved_eq]
  entries := hlength
  accepted := by
    intro signer
    have hnew : signer ∈ written.approvedSigners ∧
        signer ∉ task.approvedSigners ↔
          signer ∈ task.newlySigned toUpperCase payload := by
      rw [happroves.approved_eq, List.mem_append]
      constructor
      · rintro ⟨hold | hnew, hfresh⟩
        · exact absurd hold hfresh
        · exact hnew
      · intro hnew
        refine ⟨Or.inr hnew, fun hold => ?_⟩
        exact SignerModel.disjoint hmodel signer hold
          (mem_newlySigned_iff.mp hnew).1
    have hcount : (entries.countP fun entry =>
        entry.accepted && entry.signer == signer) =
          (task.newlySigned toUpperCase payload).count signer := by
      rw [← haccepted, List.count, List.countP_map, List.countP_filter]
      congr 1
      funext entry
      exact Bool.and_comm _ _
    rw [hcount, nodup_newlySigned.count]
    simp only [hnew]

/-- What was accepted is not pending any more. -/
theorem Approves.newlySigned_eq_nil
    (happroves : task.Approves (task.newlySigned toUpperCase payload)
      written) :
    written.newlySigned toUpperCase payload = [] := by
  rw [List.eq_nil_iff_forall_not_mem]
  intro signer hsigner
  obtain ⟨hpending, hsigned⟩ := mem_newlySigned_iff.mp hsigner
  obtain ⟨hold, hnew⟩ := happroves.mem_pending_iff.mp hpending
  rw [SignedIn, happroves.txDigest_eq] at hsigned
  exact hnew (mem_newlySigned_iff.mpr ⟨hold, hsigned⟩)

end MultisigTask

/-- On a well-formed task that takes approvals an import that runs alone ends,
and approves exactly the pending signers whose signatures the text has. -/
theorem Workbench.offline_import_meets_spec
    {toUpperCase : Utf16 → Utf16} {workbench : Workbench} {taskId : Utf16}
    {task : MultisigTask}
    (hfind : workbench.value.findTask taskId = some task)
    (hmodel : task.WellFormed) (hmutable : task.isApprovalMutable = true)
    (payload : Utf16) :
    (∃ final, RunsAlone toUpperCase workbench
        (.importOfflineSignatures taskId payload) final) ∧
      ∀ final,
        RunsAlone toUpperCase workbench
            (.importOfflineSignatures taskId payload) final →
          (payloadLines payload = [] → final.value = workbench.value) ∧
            ∃ next, final.value.findTask taskId = some next ∧
              (payloadLines payload ≠ [] →
                task.ImportedFrom toUpperCase payload next) ∧
              (∀ permuted last,
                (payloadLines permuted).Perm (payloadLines payload) →
                  RunsAlone toUpperCase workbench
                    (.importOfflineSignatures taskId permuted) last →
                  ∃ other, last.value.findTask taskId = some other ∧
                    ∀ signer, signer ∈ other.approvedSigners ↔
                      signer ∈ next.approvedSigners) ∧
              ∀ again,
                RunsAlone toUpperCase final
                    (.importOfflineSignatures taskId payload) again →
                  ∃ other, again.value.findTask taskId = some other ∧
                    other.approvedSigners = next.approvedSigners := by
  refine ⟨exists_runsAlone toUpperCase workbench _ noonClock, ?_⟩
  intro final hrun
  by_cases hlines : payloadLines payload = []
  · have hsame := hrun.eq_of_blank hlines
    rw [hsame]
    refine ⟨fun _ => rfl, task, hfind, fun hne => absurd hlines hne, ?_, ?_⟩
    · intro permuted last hperm hlast
      rw [hlines, List.perm_nil] at hperm
      rw [hlast.eq_of_blank hperm]
      exact ⟨task, hfind, fun signer => Iff.rfl⟩
    · intro again hagain
      rw [hagain.eq_of_blank hlines, hsame]
      exact ⟨task, hfind, rfl⟩
  · obtain ⟨written, entries, happroves, hnext, hlength, haccepted⟩ :=
      hrun.exists_imported hfind hmodel hmutable hlines
    refine ⟨fun hnone => absurd hnone hlines, _, hnext, fun _ =>
      happroves.importedFrom hmodel hlength haccepted, ?_, ?_⟩
    · intro permuted last hperm hlast
      have hpermuted : payloadLines permuted ≠ [] := by
        intro hnone
        rw [hnone, List.nil_perm] at hperm
        exact hlines hperm
      obtain ⟨other, otherEntries, hother, hfound, -⟩ :=
        hlast.exists_imported hfind hmodel hmutable hpermuted
      refine ⟨_, hfound, fun signer => ?_⟩
      have hsigned : task.SignedIn toUpperCase permuted signer ↔
          task.SignedIn toUpperCase payload signer := by
        simp only [MultisigTask.SignedIn, hperm.mem_iff]
      rw [hother.approved_eq, happroves.approved_eq, List.mem_append,
        List.mem_append, MultisigTask.mem_newlySigned_iff,
        MultisigTask.mem_newlySigned_iff, hsigned]
    · intro again hagain
      have hwritten : written.WellFormed := happroves.wellFormed_iff.mpr
        (hmodel.approveAll_newlySigned toUpperCase payload)
      obtain ⟨other, otherEntries, hother, hfound, -⟩ :=
        hagain.exists_imported hnext hwritten
          (happroves.mutable_eq.trans hmutable) hlines
      refine ⟨_, hfound, ?_⟩
      have hnone : MultisigTask.newlySigned toUpperCase
          { written with lastImportEntries := entries } payload = [] :=
        happroves.newlySigned_eq_nil
      rw [hother.approved_eq, hnone, List.append_nil]

/-- One good line among a repeated, a malformed and a blank one. -/
def mixedPayload : Utf16 :=
  "alice:0x12345678:0xab12\nnonsense\n\nalice:0x87654321:0xAB12"

theorem offline_import_meets_spec_of_mixedPayload :
    ∃ start final next,
      Workbench.create [payrollTask] = .ok start ∧
        Workbench.RunsAlone asciiToUpperCase start
          (.importOfflineSignatures "ms-1" mixedPayload) final ∧
        final.value.findTask "ms-1" = some next ∧
        payrollTask.ImportedFrom asciiToUpperCase mixedPayload next := by
  have hcreate : ∃ start, Workbench.create [payrollTask] = .ok start ∧
      start.value.findTask "ms-1" = some payrollTask :=
    ⟨_, rfl, rfl⟩
  obtain ⟨start, hstart, hfind⟩ := hcreate
  have hmodel : payrollTask.WellFormed :=
    MultisigTask.assertTaskModel_eq_ok_iff.mp rfl
  obtain ⟨⟨final, hrun⟩, hspec⟩ :
      (∃ final, Workbench.RunsAlone asciiToUpperCase start
        (.importOfflineSignatures "ms-1" mixedPayload) final) ∧ _ :=
    Workbench.offline_import_meets_spec hfind hmodel rfl mixedPayload
  obtain ⟨-, next, hnext, himported, -⟩ := hspec final hrun
  exact ⟨start, final, next, hstart, hrun, hnext, himported (by decide)⟩

def undigestedTask : MultisigTask :=
  { payrollTask with txDigest := "" }

/-- The line has the digest of the task, which is empty, and is refused for
it. -/
theorem offline_import_refuses_empty_digest :
    ¬ ∀ (workbench final : Workbench) (taskId payload : Utf16)
        (task : MultisigTask),
      workbench.value.findTask taskId = some task → task.WellFormed →
        task.isApprovalMutable = true →
        Workbench.RunsAlone asciiToUpperCase workbench
          (.importOfflineSignatures taskId payload) final →
        ∃ next, final.value.findTask taskId = some next ∧
          ∀ signer, signer ∈ next.approvedSigners ↔
            signer ∈ task.approvedSigners ∨
              signer ∈ task.pendingSigners ∧
                ∃ line ∈ payloadLines payload, ∃ signature txDigest,
                  parseLine line = some (signer, signature, some txDigest) ∧
                    asciiToUpperCase txDigest =
                      asciiToUpperCase task.txDigest ∧
                    isSignatureFormatValid signature = true := by
  intro hall
  have hexec : ∃ start final,
      Workbench.create [undigestedTask] = .ok start ∧
        start.value.findTask "ms-1" = some undigestedTask ∧
        Workbench.RunsAlone asciiToUpperCase start
          (.importOfflineSignatures "ms-1" "alice:0x12345678:") final ∧
        ∀ next, final.value.findTask "ms-1" = some next →
          next.approvedSigners = [] := by
    refine ⟨_, _, rfl, rfl, ⟨noonClock, [.resume 0 noonClock],
      by simp [Label.call], rfl, rfl⟩, ?_⟩
    rintro next ⟨⟩
    rfl
  obtain ⟨start, final, -, hfind, hrun, hnone⟩ := hexec
  obtain ⟨next, hnext, happroved⟩ := hall start final _ _ _ hfind
    (MultisigTask.assertTaskModel_eq_ok_iff.mp rfl) rfl hrun
  have halice := (happroved "alice").mpr (Or.inr ⟨by decide,
    "alice:0x12345678:", by decide, "0x12345678", "", by decide, rfl,
    by decide⟩)
  rw [hnone next hnext] at halice
  cases halice

end SoulonWallet.Multisig
