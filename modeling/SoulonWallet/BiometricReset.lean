import SoulonWallet.PinProvisioning

/-!
# Resetting the biometric factor

The biometric factor is written when a verification completes, and is taken
away by a reset.  A confirm rests on a verification that began after every
reset before it, as long as no reset runs during a verification.
-/

namespace SoulonWallet.Security

open LabelledRun

/-- A verification began and completed, and what it asserts is not too
old. -/
def VerifiedSince (events : List Event) (now : ℤ) : Prop :=
  ∃ call assertion,
    List.Sublist [.verifyStarted call, .verified call assertion] events ∧
      assertion.verified ∧ now - assertion.assertedAt ≤ biometricTtl

/-- A confirm that succeeds rests on a verification after every reset before
it. -/
def Store.RespectsReset (store : Store) : Prop :=
  ∀ before since call now input after input',
    store.history =
      before ++ .biometricReset :: since ++
        .confirmStarted call now input :: after →
    .confirmSucceeded call input' ∈ store.history →
    VerifiedSince since now

/-- No reset has run since a verification began that completes now. -/
def Store.Uninterrupted (store : Store) : Turn → Prop
  | .complete call (.ok assertion) =>
      assertion.verified →
      ¬ List.Sublist [.verifyStarted call, .biometricReset] store.history
  | _ => True

instance (store : Store) (turn : Turn) :
    Decidable (store.Uninterrupted turn) :=
  match turn with
  | .complete _ (.ok _) => inferInstanceAs (Decidable (_ → ¬ _))
  | .complete _ (.error _) | .verifyBiometricFactor _ | .confirm _ _ _
  | .resetBiometricFactor | .resume _ _ | .reset => .isTrue trivial

/-! ## Histories -/

/-- What was asserted at a time was asserted after every reset. -/
def AssertedAfterResets (history : List Event) (assertedAt : ℤ) : Prop :=
  ∀ before since, history = before ++ .biometricReset :: since →
    ∃ call assertion,
      List.Sublist [.verifyStarted call, .verified call assertion] since ∧
        assertion.verified ∧ assertion.assertedAt = assertedAt

/-- Every confirm that has started rests on a verification after every reset
before it. -/
def ChecksRespectResets (history : List Event) : Prop :=
  ∀ before since call now input after,
    history =
      before ++ .biometricReset :: since ++
        .confirmStarted call now input :: after →
    VerifiedSince since now

section Histories

variable {history : List Event} {event : Event} {call : ℕ}
variable {assertion : BiometricAssertion} {assertedAt now : ℤ}

theorem AssertedAfterResets.concat
    (hasserted : AssertedAfterResets history assertedAt)
    (hevent : event ≠ .biometricReset) :
    AssertedAfterResets (history ++ [event]) assertedAt := by
  intro before since hsplit
  rcases concat_eq_append_cons hsplit with ⟨rfl, -⟩ | ⟨rest, rfl, hhistory⟩
  · exact absurd rfl hevent
  · obtain ⟨verifier, assertion, hsublist, hverified, htime⟩ :=
      hasserted before rest hhistory
    exact ⟨verifier, assertion,
      hsublist.trans (List.sublist_append_left rest [event]), hverified,
      htime⟩

theorem assertedAfterResets_of_uninterrupted
    (hstarted : .verifyStarted call ∈ history)
    (huninterrupted :
      ¬ List.Sublist [.verifyStarted call, .biometricReset] history)
    (hverified : assertion.verified) :
    AssertedAfterResets (history ++ [.verified call assertion])
      assertion.assertedAt := by
  intro before since hsplit
  rcases concat_eq_append_cons hsplit with ⟨hevent, -⟩ | ⟨rest, rfl, rfl⟩
  · cases hevent
  · refine ⟨call, assertion, ?_, hverified, rfl⟩
    have hrest : .verifyStarted call ∈ rest := by
      simp only [List.mem_append, List.mem_cons] at hstarted
      rcases hstarted with hbefore | hreset | hrest
      · exact absurd
          ((List.singleton_sublist.mpr hbefore).append
            (List.cons_sublist_cons.mpr (List.nil_sublist rest)))
          huninterrupted
      · cases hreset
      · exact hrest
    exact (List.singleton_sublist.mpr hrest).append
      (List.Sublist.refl [Event.verified call assertion])

theorem ChecksRespectResets.concat
    (hchecks : ChecksRespectResets history)
    (hevent : ∀ call now input, event ≠ .confirmStarted call now input) :
    ChecksRespectResets (history ++ [event]) := by
  intro before since call now input after hsplit
  rcases concat_eq_append_cons hsplit with ⟨hsame, -⟩ | ⟨rest, -, hhistory⟩
  · exact absurd hsame (hevent call now input)
  · exact hchecks before since call now input rest hhistory

theorem ChecksRespectResets.confirmStarted
    {input : ConfirmInput}
    (hchecks : ChecksRespectResets history)
    (hasserted : AssertedAfterResets history assertedAt)
    (hrecent : now - assertedAt ≤ biometricTtl) :
    ChecksRespectResets (history ++ [.confirmStarted call now input]) := by
  intro before since started instant given after hsplit
  rcases concat_eq_append_cons hsplit with ⟨hsame, hhistory⟩ |
    ⟨rest, -, hhistory⟩
  · cases hsame
    obtain ⟨verifier, assertion, hsublist, hverified, rfl⟩ :=
      hasserted before since hhistory
    exact ⟨verifier, assertion, hsublist, hverified, hrecent⟩
  · exact hchecks before since started instant given rest hhistory

end Histories

/-! ## Runs -/

/-- The factor that is in force was asserted after every reset, and so was
what each confirm has been checked against. -/
structure Store.FollowsResets (store : Store) : Prop where
  started : ∀ call method,
    store.calls.lookup call = some (.verifying method) →
    .verifyStarted call ∈ store.history
  asserted : ∀ assertedAt, store.lastBiometricAt = some assertedAt →
    AssertedAfterResets store.history assertedAt
  checks : ChecksRespectResets store.history

namespace Platform

variable {platform : Platform} {store next : Store} {turn : Turn}

theorem Moves.verifyStarted
    {call : ℕ} {method : BiometricMethod}
    (hmoves : platform.Moves store turn next)
    (hlookup : next.calls.lookup call = some (.verifying method))
    (hstarted : ∀ method,
      store.calls.lookup call = some (.verifying method) →
      .verifyStarted call ∈ store.history) :
    .verifyStarted call ∈ next.history := by
  rcases hmoves.lookup hlookup with hold | ⟨_, -, hnew⟩ | ⟨input, hstage, -⟩ |
    ⟨before, input, -, -, hstage | ⟨_, hstage⟩⟩
  · exact hmoves.history_subset (hstarted method hold)
  · exact hnew
  · cases hstage
  · cases hstage
  · cases hstage

end Platform

namespace Store.FollowsResets

variable {platform : Platform} {store next : Store} {turn : Turn}

theorem initial : Store.initial.FollowsResets := by
  constructor
  · intro call method hlookup
    cases hlookup
  · intro assertedAt hlast
    cases hlast
  · intro before since call now input after hsplit
    have hlength := congrArg List.length hsplit
    simp [Store.initial] at hlength

/-- An event that is neither a reset nor the start of a confirm. -/
theorem concat
    {event : Event}
    (hfollows : store.FollowsResets)
    (hstarted : ∀ call method,
      next.calls.lookup call = some (.verifying method) →
      .verifyStarted call ∈ next.history)
    (hlast : next.lastBiometricAt = store.lastBiometricAt)
    (hhistory : next.history = store.history ++ [event])
    (hreset : event ≠ .biometricReset)
    (hconfirm : ∀ call now input, event ≠ .confirmStarted call now input) :
    next.FollowsResets := by
  refine ⟨hstarted, ?_, ?_⟩
  · intro assertedAt hasserted
    rw [hhistory]
    rw [hlast] at hasserted
    exact (hfollows.asserted assertedAt hasserted).concat hreset
  · rw [hhistory]
    exact hfollows.checks.concat hconfirm

theorem step
    (hfollows : store.FollowsResets) (hguard : store.Uninterrupted turn)
    (hmoves : platform.Moves store turn next) :
    next.FollowsResets := by
  have hstarted : ∀ call method,
      next.calls.lookup call = some (.verifying method) →
      .verifyStarted call ∈ next.history :=
    fun call _ hlookup => hmoves.verifyStarted hlookup (hfollows.started call)
  cases hmoves with
  | verify | fail | reject | succeed | refuse =>
      exact hfollows.concat hstarted rfl rfl (by simp) (by simp)
  | accept hstage hverified =>
      refine ⟨hstarted, ?_, hfollows.checks.concat (by simp)⟩
      intro assertedAt hlast
      obtain rfl := Option.some.inj hlast
      exact assertedAfterResets_of_uninterrupted
        (hfollows.started _ _ hstage) (hguard hverified) hverified
  | resetBiometric =>
      refine ⟨hstarted, ?_, hfollows.checks.concat (by simp)⟩
      intro assertedAt hlast
      cases hlast
  | @confirm input now readings hinput hbiometric =>
      unfold validateBiometricAssertion at hbiometric
      split at hbiometric
      next => cases hbiometric
      next assertedAt hlast =>
        have hasserted := hfollows.asserted assertedAt hlast
        refine ⟨hstarted, ?_,
          hfollows.checks.confirmStarted hasserted
            (of_decide_eq_true hbiometric)⟩
        intro assertedAt' hlast'
        exact (hfollows.asserted assertedAt' hlast').concat (by simp)
  | provision | compare | provisioned =>
      exact ⟨hstarted, hfollows.asserted, hfollows.checks⟩
  | reset =>
      refine ⟨hstarted, ?_, hfollows.checks⟩
      intro assertedAt hlast
      cases hlast

end Store.FollowsResets

/-- In a run in which no reset falls into a verification, a confirm that
succeeds rests on a verification that began after every reset before it. -/
theorem confirms_respect_resets_of_uninterrupted_run
    {platform : Platform} {turns : List Turn} {store : Store}
    (huninterrupted :
      Guarded platform.step Store.Uninterrupted .initial turns)
    (hvisit : Visits platform.step .initial turns store) :
    store.RespectsReset := by
  have hfollows : store.FollowsResets :=
    huninterrupted.invariant_of_visits Store.FollowsResets
      (fun _ _ _ hfollows hguard hstep =>
        hfollows.step hguard (Platform.moves_of_step hstep))
      Store.FollowsResets.initial hvisit
  intro before since call now input after input' hsplit _
  exact hfollows.checks before since call now input after hsplit

/-- A reset between two verifications, and a confirm after the second. -/
def resetThenVerify : List Turn :=
  [.verifyBiometricFactor .faceId, .complete 0 (.ok (faceAt 0)),
    .resetBiometricFactor, .verifyBiometricFactor .faceId,
    .complete 1 (.ok (faceAt 1)),
    .confirm (transferWith "123456") 60000000 sampleReadings,
    .resume 2 sampleReadings, .resume 2 sampleReadings,
    .resume 2 sampleReadings]

theorem confirms_respect_resets_in_resetThenVerify :
    ∃ store,
      exec samplePlatform.step .initial resetThenVerify = some store ∧
      .biometricReset ∈ store.history ∧
      .confirmSucceeded 2 (transferWith "123456") ∈ store.history ∧
      store.RespectsReset := by
  obtain ⟨store, hrun, hhistory⟩ := Option.map_eq_some_iff.mp
    (show (exec samplePlatform.step .initial resetThenVerify).map
        Store.history =
      some [.verifyStarted 0, .verified 0 (faceAt 0), .biometricReset,
        .verifyStarted 1, .verified 1 (faceAt 1),
        .confirmStarted 2 60000000 (transferWith "123456"),
        .confirmSucceeded 2 (transferWith "123456")] by decide)
  refine ⟨store, hrun, ?_, ?_, ?_⟩
  · simp [hhistory]
  · simp [hhistory]
  · exact confirms_respect_resets_of_uninterrupted_run (by decide)
      ⟨resetThenVerify, List.prefix_rfl, hrun⟩

/-- The reset comes while the verification is under way. -/
def resetDuringVerify : List Turn :=
  [.verifyBiometricFactor .faceId, .resetBiometricFactor,
    .complete 0 (.ok (faceAt 0)),
    .confirm (transferWith "123456") 60000000 sampleReadings,
    .resume 1 sampleReadings, .resume 1 sampleReadings,
    .resume 1 sampleReadings]

theorem confirm_ignores_resetDuringVerify :
    ¬ ∀ (platform : Platform) (turns : List Turn) (store : Store),
      exec platform.step .initial turns = some store →
      store.RespectsReset := by
  intro hall
  obtain ⟨store, hrun, hhistory⟩ := Option.map_eq_some_iff.mp
    (show (exec samplePlatform.step .initial resetDuringVerify).map
        Store.history =
      some [.verifyStarted 0, .biometricReset, .verified 0 (faceAt 0),
        .confirmStarted 1 60000000 (transferWith "123456"),
        .confirmSucceeded 1 (transferWith "123456")] by decide)
  obtain ⟨call, assertion, hsublist, -⟩ :=
    hall samplePlatform resetDuringVerify store hrun [.verifyStarted 0]
      [.verified 0 (faceAt 0)] 1 60000000 (transferWith "123456") _
      (transferWith "123456") hhistory (by simp [hhistory])
  have hlength := hsublist.length_le
  simp at hlength

end SoulonWallet.Security
