import SoulonWallet.PinProvisioning

/-!
# The audit trail

A confirm that passes the checks of its arguments ends in one of three ways:
it throws before its first await when the biometric factor is missing or too
old, and after its last one it throws when the PIN is wrong and returns
otherwise.  What it appends to the repository is compared with what its caller
sees: `ending` reads from the recorded history which confirm a turn ends and
how.
-/

namespace SoulonWallet.Security

open LabelledRun

/-- The arguments of a confirm that waits. -/
def Await.confirmInput : Await → Option ConfirmInput
  | .verifying _ => none
  | .retrieving input _ => some input
  | .provisioning input => some input
  | .returning input _ => some input

/-- A confirm that has returned, or has thrown. -/
structure Ending where
  call : ℕ
  input : ConfirmInput
  completed : Bool
  deriving DecidableEq

/-- How the call ends with an event. -/
def Event.endOf (call : ℕ) : Event → Option Bool
  | .confirmSucceeded ended _ => if ended = call then some true else none
  | .threw ended _ => if ended = call then some false else none
  | _ => none

@[simp] theorem endOf_threw (call : ℕ) (message : Utf16) :
    Event.endOf call (.threw call message) = some false :=
  if_pos rfl

@[simp] theorem endOf_confirmSucceeded (call : ℕ) (input : ConfirmInput) :
    Event.endOf call (.confirmSucceeded call input) = some true :=
  if_pos rfl

structure Ending.RecordedBy (ending : Ending) (event : SecurityAuditEvent) :
    Prop where
  operation : event.operation = ending.input.operation
  amount : event.amount = ending.input.amount
  success : event.success = ending.completed

namespace Platform

variable (platform : Platform)

/-- The confirm that runs in a turn, once its arguments are checked. -/
def running (store : Store) : Turn → Option (ℕ × ConfirmInput)
  | .confirm input _ _ =>
      if platform.requireInput input = .ok () then
        some (store.nextCall, input)
      else none
  | .resume call _ =>
      (store.calls.lookup call).bind fun stage =>
        stage.confirmInput.map fun input => (call, input)
  | _ => none

/-- The confirm that a turn from `store` to `next` ends. -/
def ending (store next : Store) (turn : Turn) : Option Ending :=
  (platform.running store turn).bind fun (call, input) =>
    ((next.history.drop store.history.length).head?.bind
      (Event.endOf call)).map fun completed => ⟨call, input, completed⟩

/-- The confirms that end in a run, in this order. -/
def endings : Store → List Turn → List Ending
  | _, [] => []
  | store, turn :: rest =>
      match platform.step store turn with
      | none => []
      | some next =>
          (platform.ending store next turn).toList ++ endings next rest

end Platform

/-- Every confirm that has ended has its own event in the repository, and
there are no others; the value that is shown has the same events, and its
result names one of them. -/
structure Store.AuditTrail (store : Store) (endings : List Ending) :
    Prop where
  recorded :
    List.Forall₂ Ending.RecordedBy endings store.auditEvents.reverse
  once : (endings.map Ending.call).Nodup
  started : ∀ call now input,
    .confirmStarted call now input ∈ store.history →
    (∃ stage, store.calls.lookup call = some stage) ∨
      ∃ completed, ⟨call, input, completed⟩ ∈ endings
  shown : store.value.auditEvents = store.auditEvents
  result : ∀ result, store.value.result = some result →
    ∃ event ∈ store.auditEvents,
      event.success ∧ event.eventId = result.auditEventId

/-- The trail, with what is known of the calls that still wait. -/
structure Store.Audited (store : Store) (endings : List Ending) : Prop where
  trail : store.AuditTrail endings
  waiting : ∀ call stage, store.calls.lookup call = some stage →
    call < store.nextCall
  ended : ∀ ending ∈ endings,
    ending.call < store.nextCall ∧ store.calls.lookup ending.call = none
  inputs : ∀ call now input,
    .confirmStarted call now input ∈ store.history →
    call < store.nextCall ∧
      ∀ stage, store.calls.lookup call = some stage →
        stage.confirmInput = some input

namespace Store.Audited

variable {platform : Platform} {store next : Store} {turn : Turn}
variable {endings : List Ending}

theorem initial : Store.initial.Audited [] := by
  refine ⟨⟨List.Forall₂.nil, List.nodup_nil, ?_, rfl, ?_⟩, ?_, ?_, ?_⟩
  · intro call now input hstarted
    cases hstarted
  · intro result hresult
    cases hresult
  · intro call stage hlookup
    cases hlookup
  · intro ending hending
    cases hending
  · intro call now input hstarted
    cases hstarted

/-! ## Turns that append nothing -/

/-- The trail stays as it is when no confirm goes away: the calls that wait
afterwards have waited before for the same confirm, or have just begun. -/
theorem keep
    (haudited : store.Audited endings)
    (hwaiting : ∀ call stage, next.calls.lookup call = some stage →
      (∃ before, store.calls.lookup call = some before ∧
        before.confirmInput = stage.confirmInput) ∨
      (call = store.nextCall ∧ call < next.nextCall))
    (hstay : ∀ call before input, store.calls.lookup call = some before →
      before.confirmInput = some input →
      ∃ stage, next.calls.lookup call = some stage)
    (hnextCall : store.nextCall ≤ next.nextCall)
    (hstarted : ∀ call now input,
      .confirmStarted call now input ∈ next.history →
      .confirmStarted call now input ∈ store.history ∨
        (call = store.nextCall ∧ call < next.nextCall ∧
          ∃ stage, next.calls.lookup call = some stage ∧
            stage.confirmInput = some input))
    (hevents : next.auditEvents = store.auditEvents)
    (hshown : next.value.auditEvents = store.value.auditEvents)
    (hresult : ∀ result, next.value.result = some result →
      store.value.result = some result) :
    next.Audited endings := by
  refine ⟨⟨?_, haudited.trail.once, ?_, ?_, ?_⟩, ?_, ?_, ?_⟩
  · rw [hevents]
    exact haudited.trail.recorded
  · intro call now input hmem
    rcases hstarted call now input hmem with hold | ⟨-, -, stage, hstage, -⟩
    · rcases haudited.trail.started call now input hold with
        ⟨before, hbefore⟩ | hended
      · exact Or.inl (hstay call before input hbefore
          ((haudited.inputs call now input hold).2 before hbefore))
      · exact Or.inr hended
    · exact Or.inl ⟨stage, hstage⟩
  · rw [hshown, hevents, haudited.trail.shown]
  · intro result hnext
    rw [hevents]
    exact haudited.trail.result result (hresult result hnext)
  · intro call stage hstage
    rcases hwaiting call stage hstage with ⟨before, hbefore, -⟩ | ⟨-, hnew⟩
    · exact (haudited.waiting call before hbefore).trans_le hnextCall
    · exact hnew
  · intro ending hending
    obtain ⟨hbound, hnone⟩ := haudited.ended ending hending
    refine ⟨hbound.trans_le hnextCall, ?_⟩
    by_contra hsome
    obtain ⟨stage, hstage⟩ := Option.ne_none_iff_exists'.mp hsome
    rcases hwaiting _ stage hstage with ⟨before, hbefore, -⟩ | ⟨hnew, -⟩
    · rw [hnone] at hbefore
      cases hbefore
    · exact absurd hnew hbound.ne
  · intro call now input hmem
    rcases hstarted call now input hmem with
      hold | ⟨-, hnew, stage, hstage, hinput⟩
    · obtain ⟨hbound, hinput⟩ := haudited.inputs call now input hold
      refine ⟨hbound.trans_le hnextCall, ?_⟩
      intro stage hstage
      rcases hwaiting call stage hstage with ⟨before, hbefore, hsame⟩ | ⟨hnew, -⟩
      · rw [← hsame]
        exact hinput before hbefore
      · exact absurd hnew hbound.ne
    · refine ⟨hnew, ?_⟩
      intro other hother
      rw [hstage, Option.some.injEq] at hother
      exact hother ▸ hinput

theorem of_same
    (haudited : store.Audited endings)
    (hcalls : next.calls = store.calls)
    (hnextCall : store.nextCall ≤ next.nextCall)
    (hstarted : ∀ call now input,
      .confirmStarted call now input ∈ next.history →
      .confirmStarted call now input ∈ store.history)
    (hevents : next.auditEvents = store.auditEvents)
    (hshown : next.value.auditEvents = store.value.auditEvents)
    (hresult : ∀ result, next.value.result = some result →
      store.value.result = some result) :
    next.Audited endings := by
  refine haudited.keep ?_ ?_ hnextCall ?_ hevents hshown hresult
  · intro call stage hstage
    exact Or.inl ⟨stage, hcalls ▸ hstage, rfl⟩
  · intro call before input hbefore _
    exact ⟨before, hcalls ▸ hbefore⟩
  · intro call now input hmem
    exact Or.inl (hstarted call now input hmem)

theorem enter
    {stage : Await} {event : Event} (haudited : store.Audited endings)
    (hevent : ∀ call now input, event = .confirmStarted call now input →
      call = store.nextCall ∧ stage.confirmInput = some input) :
    (store.enter stage event).Audited endings := by
  have hnew : store.nextCall < (store.enter stage event).nextCall :=
    Nat.lt_succ_self _
  refine haudited.keep ?_ ?_ hnew.le ?_ rfl rfl (fun _ hresult => hresult)
  · intro call other hother
    rw [Store.lookup_enter] at hother
    split_ifs at hother with hsame
    · exact Or.inr ⟨hsame, hsame ▸ hnew⟩
    · exact Or.inl ⟨other, hother, rfl⟩
  · intro call before input hbefore _
    have hbound := haudited.waiting call before hbefore
    exact ⟨before, by rw [Store.lookup_enter, if_neg hbound.ne, hbefore]⟩
  · intro call now input hmem
    rw [Store.enter, List.mem_append, List.mem_singleton] at hmem
    rcases hmem with hold | hlast
    · exact Or.inl hold
    · obtain ⟨rfl, hinput⟩ := hevent call now input hlast.symm
      exact Or.inr ⟨rfl, hnew, stage,
        by rw [Store.lookup_enter, if_pos rfl], hinput⟩

theorem pause
    {call : ℕ} {before stage : Await} (haudited : store.Audited endings)
    (hbefore : store.calls.lookup call = some before)
    (hinput : before.confirmInput = stage.confirmInput) :
    (store.pause call stage).Audited endings := by
  refine haudited.keep ?_ ?_ le_rfl (fun _ _ _ hmem => Or.inl hmem) rfl rfl
    (fun _ hresult => hresult)
  · intro other later hlater
    rw [Store.lookup_pause] at hlater
    split_ifs at hlater with hsame
    · obtain rfl := Option.some.inj hlater
      exact Or.inl ⟨before, hsame ▸ hbefore, hinput⟩
    · exact Or.inl ⟨later, hlater, rfl⟩
  · intro other earlier input hearlier _
    rw [Store.lookup_pause]
    split_ifs
    · exact ⟨stage, rfl⟩
    · exact ⟨earlier, hearlier⟩

/-- A verification ends. -/
theorem leave
    {call : ℕ} {method : BiometricMethod} {event : Event}
    (haudited : store.Audited endings)
    (hstage : store.calls.lookup call = some (.verifying method))
    (hevent : ∀ call now input, event ≠ .confirmStarted call now input) :
    (store.leave call event).Audited endings := by
  refine haudited.keep ?_ ?_ le_rfl ?_ rfl rfl (fun _ hresult => hresult)
  · intro other later hlater
    rw [Store.lookup_leave] at hlater
    split_ifs at hlater
    exact Or.inl ⟨later, hlater, rfl⟩
  · intro other before input hbefore hinput
    have hne : other ≠ call := by
      rintro rfl
      rw [hstage, Option.some.injEq] at hbefore
      rw [← hbefore] at hinput
      cases hinput
    exact ⟨before, by rw [Store.lookup_leave, if_neg hne, hbefore]⟩
  · intro other now input hmem
    rw [Store.leave, List.mem_append, List.mem_singleton] at hmem
    exact Or.inl (hmem.resolve_right (hevent other now input).symm)

/-! ## Turns that append an event -/

/-- A confirm ends, at once or after its last await, and appends its event. -/
theorem conclude
    {ending : Ending} {event : SecurityAuditEvent} {last : Event}
    (haudited : store.Audited endings)
    (hcall : ending.call = store.nextCall ∨
      ∃ stage, store.calls.lookup ending.call = some stage ∧
        stage.confirmInput = some ending.input)
    (hrecorded : ending.RecordedBy event)
    (hevents : next.auditEvents = event :: store.auditEvents)
    (hshown : next.value.auditEvents = next.auditEvents)
    (hresult : ∀ result, next.value.result = some result →
      store.value.result = some result ∨
        (event.success ∧ event.eventId = result.auditEventId))
    (hlookup : ∀ call, next.calls.lookup call =
      if call = ending.call then none else store.calls.lookup call)
    (hnextCall : store.nextCall ≤ next.nextCall)
    (hbound : ending.call < next.nextCall)
    (hhistory : next.history = store.history ++ [last])
    (hlast : ∀ call now input, last ≠ .confirmStarted call now input) :
    next.Audited (endings ++ [ending]) := by
  have hstarted : ∀ call now input,
      .confirmStarted call now input ∈ next.history →
      .confirmStarted call now input ∈ store.history := by
    intro call now input hmem
    rw [hhistory, List.mem_append, List.mem_singleton] at hmem
    exact hmem.resolve_right (hlast call now input).symm
  have hfresh : ∀ earlier ∈ endings, earlier.call ≠ ending.call := by
    intro earlier hearlier hsame
    obtain ⟨hold, hnone⟩ := haudited.ended earlier hearlier
    rcases hcall with hnew | ⟨stage, hstage, -⟩
    · omega
    · rw [hsame, hstage] at hnone
      cases hnone
  refine ⟨⟨?_, ?_, ?_, hshown, ?_⟩, ?_, ?_, ?_⟩
  · rw [hevents, List.reverse_cons]
    exact List.rel_append haudited.trail.recorded
      (List.Forall₂.cons hrecorded List.Forall₂.nil)
  · rw [List.map_append, List.nodup_append]
    refine ⟨haudited.trail.once, List.nodup_singleton _, ?_⟩
    intro call hmem other hother
    obtain ⟨earlier, hearlier, rfl⟩ := List.mem_map.mp hmem
    rw [List.map_singleton, List.mem_singleton] at hother
    rw [hother]
    exact hfresh earlier hearlier
  · intro call now input hmem
    have hold := hstarted call now input hmem
    rw [hlookup]
    by_cases hsame : call = ending.call
    · obtain ⟨hless, hinput⟩ := haudited.inputs call now input hold
      rcases hcall with hnew | ⟨stage, hstage, hgiven⟩
      · omega
      · have hboth := hinput stage (hsame ▸ hstage)
        rw [hgiven, Option.some.injEq] at hboth
        refine Or.inr ⟨ending.completed, ?_⟩
        rw [hsame, ← hboth]
        exact List.mem_append_right endings (List.mem_singleton_self _)
    · rw [if_neg hsame]
      rcases haudited.trail.started call now input hold with
        hwaits | ⟨completed, hended⟩
      · exact Or.inl hwaits
      · exact Or.inr ⟨completed, List.mem_append_left _ hended⟩
  · intro result hnext
    rw [hevents]
    rcases hresult result hnext with hold | hnew
    · obtain ⟨earlier, hearlier, hnames⟩ :=
        haudited.trail.result result hold
      exact ⟨earlier, List.mem_cons_of_mem _ hearlier, hnames⟩
    · exact ⟨event, List.mem_cons_self, hnew⟩
  · intro call stage hstage
    rw [hlookup] at hstage
    split_ifs at hstage
    exact (haudited.waiting call stage hstage).trans_le hnextCall
  · intro earlier hmem
    rw [hlookup]
    rcases List.mem_append.mp hmem with hold | hnew
    · obtain ⟨hless, hnone⟩ := haudited.ended earlier hold
      rw [if_neg (hfresh earlier hold)]
      exact ⟨hless.trans_le hnextCall, hnone⟩
    · rw [List.mem_singleton] at hnew
      rw [if_pos (congrArg Ending.call hnew), hnew]
      exact ⟨hbound, rfl⟩
  · intro call now input hmem
    obtain ⟨hless, hinput⟩ :=
      haudited.inputs call now input (hstarted call now input hmem)
    refine ⟨hless.trans_le hnextCall, ?_⟩
    intro stage hstage
    rw [hlookup] at hstage
    split_ifs at hstage
    exact hinput stage hstage

/-! ## Turns -/

theorem ending_of_same
    (hhistory : next.history = store.history) :
    platform.ending store next turn = none := by
  unfold Platform.ending
  rw [hhistory, List.drop_length]
  cases platform.running store turn with
  | none => rfl
  | some confirm => rfl

theorem ending_of_concat
    {call : ℕ} {input : ConfirmInput} {event : Event}
    (hrunning : platform.running store turn = some (call, input))
    (hhistory : next.history = store.history ++ [event]) :
    platform.ending store next turn =
      (event.endOf call).map fun completed => ⟨call, input, completed⟩ := by
  unfold Platform.ending
  rw [hrunning, Option.bind_some, hhistory, List.drop_left, List.head?_cons]
  dsimp only
  rw [Option.bind_some]

theorem ending_of_not_running
    (hrunning : platform.running store turn = none) :
    platform.ending store next turn = none := by
  unfold Platform.ending
  rw [hrunning, Option.bind_none]

theorem of_no_ending
    (hending : platform.ending store next turn = none)
    (hnext : next.Audited endings) :
    next.Audited (endings ++ (platform.ending store next turn).toList) := by
  rw [hending, Option.toList_none, List.append_nil]
  exact hnext

theorem step_complete
    {call : ℕ} {method : BiometricMethod} (verification : Verification)
    (haudited : store.Audited endings)
    (hstage : store.calls.lookup call = some (.verifying method)) :
    (store.complete call verification).Audited endings := by
  have hfail : ∀ message,
      (store.failVerification call message).Audited endings := by
    intro message
    have hsame :
        ({ store with
            value := { store.value with loading := false } } :
          Store).Audited endings :=
      haudited.of_same rfl le_rfl (fun _ _ _ hmem => hmem) rfl rfl
        (fun _ hresult => hresult)
    exact hsame.leave hstage (by simp)
  cases verification with
  | error error =>
      cases error with
      | none => exact hfail _
      | some message => exact hfail message
  | ok assertion =>
      rw [Store.complete]
      split_ifs
      · have hsame :
            ({ store with
                lastBiometricAt := some assertion.assertedAt
                value :=
                  { store.value with
                    biometricVerified := true, loading := false } } :
              Store).Audited endings :=
          haudited.of_same rfl le_rfl (fun _ _ _ hmem => hmem) rfl rfl
            (fun _ hresult => hresult)
        exact hsame.leave hstage (by simp)
      · exact hfail _

/-- A confirm that throws for want of the biometric factor. -/
theorem confirm_of_unverified
    {input : ConfirmInput} {now : ℤ} (readings : Readings)
    (hinput : platform.requireInput input = .ok ())
    (hbiometric : ¬ validateBiometricAssertion store.lastBiometricAt now) :
    ∃ event message,
      Ending.RecordedBy ⟨store.nextCall, input, false⟩ event ∧
        platform.confirm store input now readings =
          Store.refuse
            { store with
              auditEvents := event :: store.auditEvents
              value :=
                { store.value with
                  auditEvents := event :: store.auditEvents } }
            message := by
  refine ⟨input.auditEvent readings false false false
    (some ("生物识别未通过或已过期" : Utf16)), "请先完成生物识别校验",
    ⟨rfl, rfl, rfl⟩, ?_⟩
  rw [Platform.confirm, hinput]
  dsimp only
  rw [if_pos hbiometric]
  rfl

theorem step_confirm
    {input : ConfirmInput} {now : ℤ} (readings : Readings)
    (haudited : store.Audited endings) :
    (platform.confirm store input now readings).Audited
      (endings ++ (platform.ending store
        (platform.confirm store input now readings)
        (.confirm input now readings)).toList) := by
  cases hinput : platform.requireInput input with
  | error message =>
      have hnext : platform.confirm store input now readings =
          store.refuse message := by
        rw [Platform.confirm, hinput]
      rw [hnext]
      refine of_no_ending
        (ending_of_not_running (by simp [Platform.running, hinput])) ?_
      refine haudited.of_same rfl (Nat.le_succ _) ?_ rfl rfl
        (fun _ hresult => hresult)
      intro call instant given hmem
      rw [Store.refuse, List.mem_append, List.mem_singleton] at hmem
      exact hmem.resolve_right (by simp)
  | ok _ =>
      have hrunning : platform.running store (.confirm input now readings) =
          some (store.nextCall, input) := by
        rw [Platform.running, hinput, if_pos rfl]
      by_cases hbiometric :
          validateBiometricAssertion store.lastBiometricAt now
      · have hnext : platform.confirm store input now readings =
            store.retrievePin input now := by
          simp [Platform.confirm, hinput, hbiometric]
        have hending : platform.ending store (store.retrievePin input now)
            (.confirm input now readings) = none := by
          rw [ending_of_concat hrunning rfl]
          rfl
        rw [hnext]
        refine of_no_ending hending ?_
        have hsame :
            ({ store with
                value :=
                  { store.value with loading := true, errorText := none } } :
              Store).Audited endings :=
          haudited.of_same rfl le_rfl (fun _ _ _ hmem => hmem) rfl rfl
            (fun _ hresult => hresult)
        refine hsame.enter ?_
        rintro call instant given hevent
        cases hevent
        exact ⟨rfl, rfl⟩
      · obtain ⟨event, message, hrecorded, hnext⟩ :=
          confirm_of_unverified readings hinput hbiometric
        have hending : platform.ending store
            (platform.confirm store input now readings)
            (.confirm input now readings) =
              some ⟨store.nextCall, input, false⟩ := by
          rw [hnext, ending_of_concat hrunning rfl, endOf_threw,
            Option.map_some]
        rw [hending, hnext, Option.toList_some]
        refine haudited.conclude (Or.inl rfl) hrecorded rfl rfl
          (fun _ hresult => Or.inl hresult) ?_ (Nat.le_succ _)
          (Nat.lt_succ_self _) rfl (by simp)
        intro call
        split_ifs with hsame
        · by_contra hwaits
          obtain ⟨stage, hstage⟩ := Option.ne_none_iff_exists'.mp hwaits
          have hbound := haudited.waiting call stage hstage
          exact absurd hsame hbound.ne
        · rfl

/-- A confirm after its last await: the PIN is right, or it is not. -/
theorem step_finish
    {call : ℕ} {input : ConfirmInput} {pinOk : Bool} (readings : Readings)
    (haudited : store.Audited endings)
    (hstage : store.calls.lookup call = some (.returning input pinOk)) :
    (platform.finishConfirm store call input pinOk readings).Audited
      (endings ++ [⟨call, input, pinOk⟩]) ∧
    ∃ event : Event, event.endOf call = some pinOk ∧
      (platform.finishConfirm store call input pinOk readings).history =
        store.history ++ [event] := by
  have hwaits : ∃ stage, store.calls.lookup call = some stage ∧
      stage.confirmInput = some input := ⟨_, hstage, rfl⟩
  have hbound := haudited.waiting call _ hstage
  cases pinOk with
  | false =>
      refine ⟨?_, _, endOf_threw call _, rfl⟩
      exact haudited.conclude (Or.inr hwaits) ⟨rfl, rfl, rfl⟩ rfl rfl
        (fun _ hresult => Or.inl hresult)
        (fun _ => Store.lookup_leave _ _ _ _) le_rfl hbound rfl (by simp)
  | true =>
      refine ⟨?_, _, endOf_confirmSucceeded call input, rfl⟩
      refine haudited.conclude (Or.inr hwaits) ⟨rfl, rfl, rfl⟩ rfl rfl ?_
        (fun _ => Store.lookup_leave _ _ _ _) le_rfl hbound rfl (by simp)
      intro result hresult
      obtain rfl := Option.some.inj hresult
      exact Or.inr ⟨rfl, rfl⟩

theorem step_retrieved
    {call : ℕ} {input : ConfirmInput} {stored : Option Utf16}
    (haudited : store.Audited endings)
    (hstage : store.calls.lookup call = some (.retrieving input stored)) :
    (platform.verifyOrProvisionPin store call input stored).Audited endings ∧
      (platform.verifyOrProvisionPin store call input stored).history =
        store.history := by
  cases stored with
  | none =>
      refine ⟨?_, rfl⟩
      have hsame :
          ({ store with
              pinStore := store.pinStore.insert pinAlias
                (platform.digest input.pin) } : Store).Audited endings :=
        haudited.of_same rfl le_rfl (fun _ _ _ hmem => hmem) rfl rfl
          (fun _ hresult => hresult)
      exact hsame.pause hstage rfl
  | some stored => exact ⟨haudited.pause hstage rfl, rfl⟩

theorem step
    (haudited : store.Audited endings) (hreset : turn ≠ .reset)
    (hstep : platform.step store turn = some next) :
    next.Audited (endings ++ (platform.ending store next turn).toList) := by
  cases turn with
  | verifyBiometricFactor method =>
      obtain rfl := Option.some.inj hstep
      refine of_no_ending (ending_of_not_running rfl) ?_
      have hsame :
          ({ store with
              value :=
                { store.value with loading := true, errorText := none } } :
            Store).Audited endings :=
        haudited.of_same rfl le_rfl (fun _ _ _ hmem => hmem) rfl rfl
          (fun _ hresult => hresult)
      exact hsame.enter (by simp)
  | complete call verification =>
      refine of_no_ending (ending_of_not_running rfl) ?_
      simp only [Platform.step] at hstep
      cases hlookup : store.calls.lookup call with
      | none => simp [hlookup] at hstep
      | some stage =>
          cases stage with
          | verifying method =>
              simp only [hlookup, Option.some.injEq] at hstep
              rw [← hstep]
              exact haudited.step_complete verification hlookup
          | retrieving input stored => simp [hlookup] at hstep
          | provisioning input => simp [hlookup] at hstep
          | returning input pinOk => simp [hlookup] at hstep
  | resetBiometricFactor =>
      obtain rfl := Option.some.inj hstep
      refine of_no_ending (ending_of_not_running rfl) ?_
      refine haudited.of_same rfl le_rfl ?_ rfl rfl ?_
      · intro call now input hmem
        rw [Store.resetBiometricFactor, List.mem_append,
          List.mem_singleton] at hmem
        exact hmem.resolve_right (by simp)
      · intro result hresult
        cases hresult
  | confirm input now readings =>
      obtain rfl := Option.some.inj hstep
      exact haudited.step_confirm readings
  | resume call readings =>
      simp only [Platform.step] at hstep
      cases hlookup : store.calls.lookup call with
      | none => simp [hlookup] at hstep
      | some stage =>
          cases stage with
          | verifying method => simp [hlookup] at hstep
          | retrieving input stored =>
              simp only [hlookup, Option.some.injEq] at hstep
              subst hstep
              obtain ⟨hnext, hhistory⟩ := haudited.step_retrieved hlookup
              exact of_no_ending (ending_of_same hhistory) hnext
          | provisioning input =>
              simp only [hlookup, Option.some.injEq] at hstep
              subst hstep
              exact of_no_ending (ending_of_same rfl)
                (haudited.pause hlookup rfl)
          | returning input pinOk =>
              simp only [hlookup, Option.some.injEq] at hstep
              subst hstep
              obtain ⟨hnext, event, hended, hhistory⟩ :=
                haudited.step_finish readings hlookup
              have hrunning : platform.running store (.resume call readings) =
                  some (call, input) := by
                rw [Platform.running, hlookup]
                rfl
              rw [ending_of_concat hrunning hhistory, hended]
              exact hnext
  | reset => exact absurd rfl hreset

theorem of_exec
    {turns : List Turn} (haudited : store.Audited endings)
    (hreset : ∀ turn ∈ turns, turn ≠ .reset)
    (hrun : exec platform.step store turns = some next) :
    next.Audited (endings ++ platform.endings store turns) := by
  induction turns generalizing store endings with
  | nil =>
      simp only [exec_nil, Option.some.injEq] at hrun
      rw [← hrun, Platform.endings, List.append_nil]
      exact haudited
  | cons turn rest ih =>
      obtain ⟨hturn, hrest⟩ := List.forall_mem_cons.mp hreset
      obtain ⟨middle, hstep, htail⟩ := exec_cons_eq_some.mp hrun
      rw [Platform.endings, hstep]
      dsimp only
      rw [← List.append_assoc]
      exact ih (haudited.step hturn hstep) hrest htail

end Store.Audited

/-- In every state of every run without a reset of the store, each confirm
that has ended has exactly one event, which tells whether it completed. -/
theorem audit_trail_complete
    {platform : Platform} {turns : List Turn} {store : Store}
    (hreset : ∀ turn ∈ turns, turn ≠ .reset)
    (hrun : exec platform.step .initial turns = some store) :
    store.AuditTrail (platform.endings .initial turns) := by
  have haudited := Store.Audited.initial.of_exec hreset hrun
  rw [List.nil_append] at haudited
  exact haudited.trail

/-- A confirm without the biometric factor, two that overlap, and one with a
wrong PIN that is under way when the factor is reset. -/
def threeWaysToEnd : List Turn :=
  [.confirm (transferWith "123456") 60000000 sampleReadings,
    .verifyBiometricFactor .faceId, .complete 1 (.ok (faceAt 0)),
    .confirm (transferWith "123456") 60000000 sampleReadings,
    .confirm (transferWith "123456") 60000000 sampleReadings,
    .resume 2 sampleReadings, .resume 3 sampleReadings,
    .resume 3 sampleReadings, .resume 2 sampleReadings,
    .resume 3 sampleReadings,
    .confirm (transferWith "654321") 60000000 sampleReadings,
    .resetBiometricFactor, .resume 4 sampleReadings,
    .resume 4 sampleReadings, .resume 2 sampleReadings]

theorem audit_trail_of_threeWaysToEnd :
    ∃ store,
      exec samplePlatform.step .initial threeWaysToEnd = some store ∧
        store.auditEvents.map SecurityAuditEvent.success =
          [true, false, true, false] ∧
        store.AuditTrail
          [⟨0, transferWith "123456", false⟩,
            ⟨3, transferWith "123456", true⟩,
            ⟨4, transferWith "654321", false⟩,
            ⟨2, transferWith "123456", true⟩] := by
  obtain ⟨store, hrun, hevents⟩ := Option.map_eq_some_iff.mp
    (show (exec samplePlatform.step .initial threeWaysToEnd).map
        (fun store => store.auditEvents.map SecurityAuditEvent.success) =
      some [true, false, true, false] by decide)
  have hendings : samplePlatform.endings .initial threeWaysToEnd =
      [⟨0, transferWith "123456", false⟩, ⟨3, transferWith "123456", true⟩,
        ⟨4, transferWith "654321", false⟩,
        ⟨2, transferWith "123456", true⟩] := by decide
  have htrail := audit_trail_complete (by simp [threeWaysToEnd]) hrun
  rw [hendings] at htrail
  exact ⟨store, hrun, hevents, htrail⟩

end SoulonWallet.Security
