import SoulonWallet.ExceptResults
import SoulonWallet.SecurityConfirm

/-!
# One PIN

The PIN is provisioned by the first confirm, which reads the credential store,
waits and then writes it.  The confirms of a run agree on their PIN as long as
none of them starts between the two while another PIN is being provisioned.
-/

namespace SoulonWallet.Security

open LabelledRun

/-- The PIN of a confirm that will succeed once it is resumed. -/
def Await.promise : Await → Option Utf16
  | .retrieving input none => some input.pin
  | .provisioning input => some input.pin
  | .returning input true => some input.pin
  | _ => none

/-- The stages of a call that has not met a stored PIN. -/
def Await.Early : Await → Prop
  | .verifying _ => True
  | .retrieving _ none => True
  | _ => False

def Event.confirmedPin : Event → Option Utf16
  | .confirmSucceeded _ input => some input.pin
  | _ => none

namespace Store

/-- All confirms that succeed have the same PIN. -/
def OnePin (store : Store) : Prop :=
  ∀ call input other input',
    .confirmSucceeded call input ∈ store.history →
    .confirmSucceeded other input' ∈ store.history →
    input.pin = input'.pin

/-- The PIN belongs to a confirm that has succeeded or is going to. -/
def Promises (store : Store) (pin : Utf16) : Prop :=
  (∃ call stage, store.calls.lookup call = some stage ∧
    stage.promise = some pin) ∨
  ∃ event ∈ store.history, event.confirmedPin = some pin

variable {store : Store} {pin : Utf16}

theorem promises_enter
    {stage : Await} {event : Event}
    (hpromises : (store.enter stage event).Promises pin) :
    store.Promises pin ∨ stage.promise = some pin ∨
      event.confirmedPin = some pin := by
  rcases hpromises with ⟨call, stage', hlookup, hpromise⟩ |
    ⟨event', hmem, hconfirmed⟩
  · rw [lookup_enter] at hlookup
    split_ifs at hlookup
    · obtain rfl := Option.some.inj hlookup
      exact Or.inr (Or.inl hpromise)
    · exact Or.inl (Or.inl ⟨call, stage', hlookup, hpromise⟩)
  · simp only [enter, List.mem_append, List.mem_singleton] at hmem
    rcases hmem with hmem | rfl
    · exact Or.inl (Or.inr ⟨event', hmem, hconfirmed⟩)
    · exact Or.inr (Or.inr hconfirmed)

theorem promises_pause
    {call : ℕ} {stage : Await}
    (hpromises : (store.pause call stage).Promises pin) :
    store.Promises pin ∨ stage.promise = some pin := by
  rcases hpromises with ⟨other, stage', hlookup, hpromise⟩ | hconfirmed
  · rw [lookup_pause] at hlookup
    split_ifs at hlookup
    · obtain rfl := Option.some.inj hlookup
      exact Or.inr hpromise
    · exact Or.inl (Or.inl ⟨other, stage', hlookup, hpromise⟩)
  · exact Or.inl (Or.inr hconfirmed)

theorem promises_leave
    {call : ℕ} {event : Event}
    (hpromises : (store.leave call event).Promises pin) :
    store.Promises pin ∨ event.confirmedPin = some pin := by
  rcases hpromises with ⟨other, stage, hlookup, hpromise⟩ |
    ⟨event', hmem, hconfirmed⟩
  · rw [lookup_leave] at hlookup
    split_ifs at hlookup
    exact Or.inl (Or.inl ⟨other, stage, hlookup, hpromise⟩)
  · simp only [leave, List.mem_append, List.mem_singleton] at hmem
    rcases hmem with hmem | rfl
    · exact Or.inl (Or.inr ⟨event', hmem, hconfirmed⟩)
    · exact Or.inr hconfirmed

theorem promises_concat
    {next : Store} {event : Event}
    (hpromises : next.Promises pin)
    (hcalls : next.calls = store.calls)
    (hhistory : next.history = store.history ++ [event])
    (hevent : event.confirmedPin = none) :
    store.Promises pin := by
  rcases hpromises with ⟨call, stage, hlookup, hpromise⟩ |
    ⟨event', hmem, hconfirmed⟩
  · exact Or.inl ⟨call, stage, hcalls ▸ hlookup, hpromise⟩
  · rw [hhistory, List.mem_append, List.mem_singleton] at hmem
    rcases hmem with hmem | rfl
    · exact Or.inr ⟨event', hmem, hconfirmed⟩
    · rw [hevent] at hconfirmed
      cases hconfirmed

end Store

namespace Platform

variable {platform : Platform} {store next : Store} {turn : Turn}
variable {pin : Utf16}

/-- A PIN comes to be promised when its confirm reads an empty credential
store, or finds its own digest there. -/
theorem Moves.promises
    (hmoves : platform.Moves store turn next) (hpromises : next.Promises pin) :
    store.Promises pin ∨
      (∃ input now readings, turn = .confirm input now readings ∧
        platform.requireInput input = .ok () ∧
        validateBiometricAssertion store.lastBiometricAt now ∧
        store.pinStore.lookup pinAlias = none ∧ input.pin = pin) ∨
      ∃ call input, store.calls.lookup call =
        some (.retrieving input (some (platform.digest input.pin))) ∧
        input.pin = pin := by
  cases hmoves with
  | verify =>
      rcases Store.promises_enter hpromises with hold | hstage | hevent
      · exact Or.inl hold
      · cases hstage
      · cases hevent
  | fail hstage | accept hstage hverified | reject hstage =>
      rcases Store.promises_leave hpromises with hold | hevent
      · exact Or.inl hold
      · cases hevent
  | resetBiometric | refuse =>
      exact Or.inl (Store.promises_concat hpromises rfl rfl rfl)
  | @confirm input now readings hinput hbiometric =>
      rcases Store.promises_enter hpromises with hold | hstage | hevent
      · exact Or.inl hold
      · cases hstored : store.pinStore.lookup pinAlias with
        | none =>
            rw [hstored] at hstage
            exact Or.inr (Or.inl ⟨input, now, readings, rfl, hinput,
              hbiometric, rfl, Option.some.inj hstage⟩)
        | some stored =>
            rw [hstored] at hstage
            cases hstage
      · cases hevent
  | @provision call input readings hstage =>
      rcases Store.promises_pause hpromises with hold | hpromise
      · exact Or.inl hold
      · exact Or.inl (Or.inl ⟨call, _, hstage, hpromise⟩)
  | @compare call input readings stored hstage =>
      rcases Store.promises_pause hpromises with hold | hpromise
      · exact Or.inl hold
      · by_cases hsame : stored = platform.digest input.pin
        · simp only [hsame, decide_true, Await.promise,
            Option.some.injEq] at hpromise
          exact Or.inr (Or.inr ⟨call, input, hsame ▸ hstage, hpromise⟩)
        · simp [hsame, Await.promise] at hpromise
  | @provisioned call input readings hstage =>
      rcases Store.promises_pause hpromises with hold | hpromise
      · exact Or.inl hold
      · exact Or.inl (Or.inl ⟨call, _, hstage, hpromise⟩)
  | @succeed call input readings auditEvents value hstage =>
      rcases Store.promises_leave hpromises with hold | hconfirmed
      · exact Or.inl hold
      · exact Or.inl (Or.inl ⟨call, _, hstage, hconfirmed⟩)
  | reset => exact Or.inl hpromises

/-- A PIN is stored only by a confirm that promises it. -/
theorem Moves.pinStore (hmoves : platform.Moves store turn next) :
    next.pinStore.lookup pinAlias = store.pinStore.lookup pinAlias ∨
      ∃ pin, store.Promises pin ∧
        next.pinStore.lookup pinAlias = some (platform.digest pin) := by
  cases hmoves with
  | @provision call input readings hstage =>
      exact Or.inr ⟨input.pin, Or.inl ⟨call, _, hstage, rfl⟩,
        AList.lookup_insert _⟩
  | _ => exact Or.inl rfl

theorem Moves.history_subset
    (hmoves : platform.Moves store turn next) :
    store.history ⊆ next.history := by
  cases hmoves with
  | provision | compare | provisioned | reset => exact List.Subset.refl _
  | _ => exact List.subset_append_left _ _

/-- A call that waits after a turn waited in the same stage before, has just
begun, or is a confirm that went on. -/
theorem Moves.lookup
    {call : ℕ} {stage : Await} (hmoves : platform.Moves store turn next)
    (hlookup : next.calls.lookup call = some stage) :
    store.calls.lookup call = some stage ∨
      (∃ method, stage = .verifying method ∧
        .verifyStarted call ∈ next.history) ∨
      (∃ input, stage = .retrieving input (next.pinStore.lookup pinAlias) ∧
        platform.requireInput input = .ok ()) ∨
      ∃ before input, store.calls.lookup call = some before ∧
        (before.Early → next.pinStore.lookup pinAlias ≠ none) ∧
        (stage = .provisioning input ∨
          ∃ pinOk, stage = .returning input pinOk) := by
  cases hmoves with
  | @verify method =>
      rw [Store.verifyBiometricFactor, Store.lookup_enter] at hlookup
      split_ifs at hlookup with hcall
      · obtain rfl := Option.some.inj hlookup
        exact Or.inr (Or.inl ⟨method, rfl,
          hcall ▸ List.mem_append_right _ List.mem_cons_self⟩)
      · exact Or.inl hlookup
  | fail hstage | accept hstage | reject hstage | succeed hstage =>
      simp only [Store.failVerification, Store.accept,
        Store.lookup_leave] at hlookup
      split_ifs at hlookup
      exact Or.inl hlookup
  | resetBiometric | refuse | reset => exact Or.inl hlookup
  | @confirm input now readings hinput hbiometric =>
      rw [Store.retrievePin, Store.lookup_enter] at hlookup
      split_ifs at hlookup
      · obtain rfl := Option.some.inj hlookup
        exact Or.inr (Or.inr (Or.inl ⟨input, rfl, hinput⟩))
      · exact Or.inl hlookup
  | @provision started input readings hstage =>
      have hstored : (store.provisionPin started input
          (platform.digest input.pin)).pinStore.lookup pinAlias ≠ none := by
        simp [Store.provisionPin, Store.pause]
      rw [Store.provisionPin, Store.lookup_pause] at hlookup
      split_ifs at hlookup with hcall
      · obtain rfl := Option.some.inj hlookup
        exact Or.inr (Or.inr (Or.inr ⟨_, input, hcall ▸ hstage,
          fun _ => hstored, Or.inl rfl⟩))
      · exact Or.inl hlookup
  | @compare started input readings stored hstage =>
      rw [Store.lookup_pause] at hlookup
      split_ifs at hlookup with hcall
      · obtain rfl := Option.some.inj hlookup
        exact Or.inr (Or.inr (Or.inr ⟨_, input, hcall ▸ hstage, False.elim,
          Or.inr ⟨_, rfl⟩⟩))
      · exact Or.inl hlookup
  | @provisioned started input readings hstage =>
      rw [Store.lookup_pause] at hlookup
      split_ifs at hlookup with hcall
      · obtain rfl := Option.some.inj hlookup
        exact Or.inr (Or.inr (Or.inr ⟨_, input, hcall ▸ hstage, False.elim,
          Or.inr ⟨_, rfl⟩⟩))
      · exact Or.inl hlookup

theorem Moves.retrieving
    {call : ℕ} {input : ConfirmInput} {read : Option Utf16}
    (hmoves : platform.Moves store turn next)
    (hlookup : next.calls.lookup call = some (.retrieving input read)) :
    store.calls.lookup call = some (.retrieving input read) ∨
      (platform.requireInput input = .ok () ∧
        read = next.pinStore.lookup pinAlias) := by
  rcases hmoves.lookup hlookup with hold | ⟨method, hstage, -⟩ |
    ⟨started, hstage, hinput⟩ | ⟨before, started, -, -, hstage | ⟨_, hstage⟩⟩
  · exact Or.inl hold
  · cases hstage
  · cases hstage
    exact Or.inr ⟨hinput, rfl⟩
  · cases hstage
  · cases hstage

/-- No confirm starts while no PIN is stored and a confirm with another PIN
has read that. -/
def Unmixed (platform : Platform) (store : Store) : Turn → Prop
  | .confirm input now _ =>
      platform.requireInput input = .ok () →
      validateBiometricAssertion store.lastBiometricAt now →
      store.pinStore.lookup pinAlias = none →
      ∀ entry ∈ store.calls.entries, ∀ pin ∈ entry.2.promise,
        pin = input.pin
  | _ => True

instance (platform : Platform) (store : Store) (turn : Turn) :
    Decidable (platform.Unmixed store turn) :=
  match turn with
  | .confirm _ _ _ => inferInstanceAs (Decidable (_ → _ → _ → _))
  | .verifyBiometricFactor _ | .complete _ _ | .resetBiometricFactor
  | .resume _ _ | .reset => .isTrue trivial

end Platform

/-- The promised PINs agree with each other and with the stored digest, which
is what a confirm that has read one still holds. -/
structure Store.Agreed (platform : Platform) (store : Store) : Prop where
  checked : ∀ call input read,
    store.calls.lookup call = some (.retrieving input read) →
    requirePin input.pin = .ok ()
  promised : ∀ pin, store.Promises pin → requirePin pin = .ok ()
  read : ∀ call input digest,
    store.calls.lookup call = some (.retrieving input (some digest)) →
    store.pinStore.lookup pinAlias = some digest
  early : store.pinStore.lookup pinAlias = none →
    (∀ call stage, store.calls.lookup call = some stage → stage.Early) ∧
      ∀ event ∈ store.history, event.confirmedPin = none
  stored : ∀ digest pin, store.pinStore.lookup pinAlias = some digest →
    store.Promises pin → platform.digest pin = digest
  agree : ∀ pin other, store.Promises pin → store.Promises other →
    pin = other

namespace Platform

theorem requireInput_pin
    {platform : Platform} {input : ConfirmInput}
    (hinput : platform.requireInput input = .ok ()) :
    requirePin input.pin = .ok () := by
  obtain ⟨_, -, hrest⟩ := bind_eq_ok_iff.mp hinput
  obtain ⟨_, -, hpin⟩ := bind_eq_ok_iff.mp hrest
  exact hpin

end Platform

namespace Store.Agreed

variable {platform : Platform} {store next : Store} {turn : Turn}
variable {pin other : Utf16}

theorem initial (platform : Platform) : Store.initial.Agreed platform := by
  have hnone : ∀ pin, ¬ Store.initial.Promises pin := by
    rintro pin (⟨call, stage, hlookup, -⟩ | ⟨event, hmem, -⟩)
    · cases hlookup
    · cases hmem
  constructor
  · intro call input read hlookup
    cases hlookup
  · intro pin hpromises
    exact absurd hpromises (hnone pin)
  · intro call input digest hlookup
    cases hlookup
  · intro _
    constructor
    · intro call stage hlookup
      cases hlookup
    · intro event hmem
      cases hmem
  · intro digest pin hlookup
    cases hlookup
  · intro pin other hpromises
    exact absurd hpromises (hnone pin)

theorem waiting
    (hagreed : store.Agreed platform)
    (hnone : store.pinStore.lookup pinAlias = none)
    (hpromises : store.Promises pin) :
    ∃ call input, store.calls.lookup call = some (.retrieving input none) ∧
      input.pin = pin := by
  obtain ⟨hstages, hhistory⟩ := hagreed.early hnone
  rcases hpromises with ⟨call, stage, hlookup, hpromise⟩ |
    ⟨event, hmem, hconfirmed⟩
  · have hearly := hstages call stage hlookup
    cases stage with
    | verifying method => cases hpromise
    | retrieving input read =>
        cases read with
        | none => exact ⟨call, input, hlookup, Option.some.inj hpromise⟩
        | some digest => cases hearly
    | provisioning input => cases hearly
    | returning input pinOk => cases hearly
  · rw [hhistory event hmem] at hconfirmed
    cases hconfirmed

/-- A PIN that comes to be promised is the one that was promised before. -/
theorem promises_eq
    (hinjective : Set.InjOn platform.digest
      {pin | requirePin pin = .ok ()})
    (hagreed : store.Agreed platform) (hguard : platform.Unmixed store turn)
    (hmoves : platform.Moves store turn next)
    (hnew : next.Promises pin) (hold : store.Promises other) :
    pin = other := by
  rcases hmoves.promises hnew with hpin |
    ⟨input, now, readings, rfl, hinput, hbiometric, hnone, rfl⟩ |
    ⟨call, input, hlookup, rfl⟩
  · exact hagreed.agree pin other hpin hold
  · obtain ⟨call, started, hlookup, rfl⟩ := hagreed.waiting hnone hold
    exact (hguard hinput hbiometric hnone _
      (KeyedMap.mem_entries_iff.mpr hlookup) _ rfl).symm
  · have hstored := hagreed.read call input _ hlookup
    exact hinjective (hagreed.checked call input _ hlookup)
      (hagreed.promised other hold)
      (hagreed.stored _ other hstored hold).symm

theorem step_read
    (hagreed : store.Agreed platform) (hmoves : platform.Moves store turn next)
    {call : ℕ} {input : ConfirmInput} {digest : Utf16}
    (hlookup : next.calls.lookup call =
      some (.retrieving input (some digest))) :
    next.pinStore.lookup pinAlias = some digest := by
  rcases hmoves.retrieving hlookup with hold | ⟨-, hread⟩
  · have hstored := hagreed.read call input digest hold
    rcases hmoves.pinStore with hsame | ⟨pin, hpromises, hnew⟩
    · rw [hsame, hstored]
    · rw [hnew, hagreed.stored digest pin hstored hpromises]
  · exact hread.symm

theorem step_early
    (hagreed : store.Agreed platform) (hmoves : platform.Moves store turn next)
    (hnone : next.pinStore.lookup pinAlias = none) :
    (∀ call stage, next.calls.lookup call = some stage → stage.Early) ∧
      ∀ event ∈ next.history, event.confirmedPin = none := by
  have hbefore : store.pinStore.lookup pinAlias = none := by
    rcases hmoves.pinStore with hsame | ⟨pin, -, hnew⟩
    · rw [← hsame, hnone]
    · rw [hnone] at hnew
      cases hnew
  obtain ⟨hstages, hhistory⟩ := hagreed.early hbefore
  constructor
  · intro call stage hlookup
    rcases hmoves.lookup hlookup with hold | ⟨method, rfl, -⟩ |
      ⟨input, rfl, -⟩ | ⟨before, input, hwaited, hstored, -⟩
    · exact hstages call stage hold
    · trivial
    · rw [hnone]
      trivial
    · exact absurd hnone (hstored (hstages call before hwaited))
  · cases hmoves with
    | verify | fail | accept | resetBiometric | refuse | confirm | reject =>
        exact List.forall_mem_append.mpr
          ⟨hhistory, by simp [Event.confirmedPin]⟩
    | provision | compare | provisioned | reset => exact hhistory
    | succeed hstage => exact (hstages _ _ hstage).elim

theorem step_stored
    (hinjective : Set.InjOn platform.digest
      {pin | requirePin pin = .ok ()})
    (hagreed : store.Agreed platform) (hguard : platform.Unmixed store turn)
    (hmoves : platform.Moves store turn next) {digest : Utf16}
    (hstored : next.pinStore.lookup pinAlias = some digest)
    (hpromises : next.Promises pin) :
    platform.digest pin = digest := by
  rcases hmoves.pinStore with hsame | ⟨other, hother, hnew⟩
  · rw [hsame] at hstored
    rcases hmoves.promises hpromises with hold |
      ⟨input, now, readings, -, -, -, hnone, -⟩ | ⟨call, input, hlookup, rfl⟩
    · exact hagreed.stored digest pin hstored hold
    · rw [hnone] at hstored
      cases hstored
    · rw [hagreed.read call input _ hlookup] at hstored
      exact Option.some.inj hstored
  · rw [hagreed.promises_eq hinjective hguard hmoves hpromises hother]
    rw [hnew] at hstored
    exact Option.some.inj hstored

/-- Two PINs that are promised after a turn are both old, or one is old, or
they belong to the same confirm or to the same stored digest. -/
theorem step_agree
    (hinjective : Set.InjOn platform.digest
      {pin | requirePin pin = .ok ()})
    (hagreed : store.Agreed platform) (hguard : platform.Unmixed store turn)
    (hmoves : platform.Moves store turn next)
    (hpin : next.Promises pin) (hother : next.Promises other) :
    pin = other := by
  rcases hmoves.promises hpin with hold |
    ⟨input, now, readings, rfl, -, -, hnone, rfl⟩ | ⟨call, input, hlookup, rfl⟩
  · exact (hagreed.promises_eq hinjective hguard hmoves hother hold).symm
  · rcases hmoves.promises hother with hold |
      ⟨input', now', readings', hturn, -, -, -, rfl⟩ |
      ⟨call, input', hlookup, rfl⟩
    · exact hagreed.promises_eq hinjective hguard hmoves hpin hold
    · cases hturn
      rfl
    · rw [hagreed.read call input' _ hlookup] at hnone
      cases hnone
  · have hstored := hagreed.read call input _ hlookup
    rcases hmoves.promises hother with hold |
      ⟨input', now', readings', -, -, -, hnone, -⟩ |
      ⟨call', input', hlookup', rfl⟩
    · exact hagreed.promises_eq hinjective hguard hmoves hpin hold
    · rw [hnone] at hstored
      cases hstored
    · rw [hagreed.read call' input' _ hlookup'] at hstored
      exact hinjective (hagreed.checked call input _ hlookup)
        (hagreed.checked call' input' _ hlookup')
        (Option.some.inj hstored).symm

theorem step
    (hinjective : Set.InjOn platform.digest
      {pin | requirePin pin = .ok ()})
    (hagreed : store.Agreed platform) (hguard : platform.Unmixed store turn)
    (hmoves : platform.Moves store turn next) :
    next.Agreed platform := by
  constructor
  · intro call input read hlookup
    rcases hmoves.retrieving hlookup with hold | ⟨hinput, -⟩
    · exact hagreed.checked call input read hold
    · exact Platform.requireInput_pin hinput
  · intro pin hpromises
    rcases hmoves.promises hpromises with hold |
      ⟨input, now, readings, -, hinput, -, -, rfl⟩ |
      ⟨call, input, hlookup, rfl⟩
    · exact hagreed.promised pin hold
    · exact Platform.requireInput_pin hinput
    · exact hagreed.checked call input _ hlookup
  · intro call input digest hlookup
    exact hagreed.step_read hmoves hlookup
  · exact hagreed.step_early hmoves
  · intro digest pin hstored hpromises
    exact hagreed.step_stored hinjective hguard hmoves hstored hpromises
  · intro pin other hpin hother
    exact hagreed.step_agree hinjective hguard hmoves hpin hother

theorem onePin (hagreed : store.Agreed platform) : store.OnePin := by
  intro call input other input' hmem hmem'
  exact hagreed.agree _ _ (Or.inr ⟨_, hmem, rfl⟩) (Or.inr ⟨_, hmem', rfl⟩)

end Store.Agreed

/-- The confirms that succeed in a run have one PIN if none of them starts
while a confirm with another PIN has found no PIN and none is stored. -/
theorem confirms_have_one_pin_of_unmixed_run
    {platform : Platform} {turns : List Turn} {store : Store}
    (hinjective : Set.InjOn platform.digest
      {pin | requirePin pin = .ok ()})
    (hunmixed : Guarded platform.step platform.Unmixed .initial turns)
    (hvisit : Visits platform.step .initial turns store) :
    store.OnePin := by
  have hagreed : store.Agreed platform :=
    hunmixed.invariant_of_visits (Store.Agreed platform)
      (fun _ _ _ hagreed hguard hstep =>
        hagreed.step hinjective hguard (Platform.moves_of_step hstep))
      (Store.Agreed.initial platform) hvisit
  exact hagreed.onePin

/-- The digests of two PINs and of a request id. -/
def sampleHash (text : Utf16) : Utf16 :=
  if text = "soulon.wallet.pin.v1:123456" then
    "f4aDm43NtEh4WTefw3mQCF3RV-j_C-tob_WSpE56A4M="
  else if text = "soulon.wallet.pin.v1:654321" then
    "srhsq3GyWQ-7CiP0rKvxxlFn8bRfuxKAiyTWN85fJOE="
  else if text = "soulon.wallet.pin.v1:60000000|转账|1" then
    "5cHnp4Ql3byJrY3hxkia7M-0PaQ3j3oFLL8wcu8QSdw="
  else text

def samplePlatform : Platform where
  tryParse text := if text = "1" then some (.finite 1) else none
  hash := sampleHash

def transferWith (pin : Utf16) : ConfirmInput :=
  ⟨"转账", "1", pin, .faceId⟩

def sampleReadings : Readings :=
  ⟨60000000, 60000000, 60000000, 60000000, 7⟩

def faceAt (assertedAt : ℤ) : BiometricAssertion :=
  ⟨.faceId, true, assertedAt⟩

/-- Two confirms with one PIN overlap, and a third one with another PIN comes
after them. -/
def samePinTwice : List Turn :=
  [.verifyBiometricFactor .faceId, .complete 0 (.ok (faceAt 0)),
    .confirm (transferWith "123456") 60000000 sampleReadings,
    .confirm (transferWith "123456") 60000000 sampleReadings,
    .resume 1 sampleReadings, .resume 2 sampleReadings,
    .resume 2 sampleReadings, .resume 1 sampleReadings,
    .resume 1 sampleReadings, .resume 2 sampleReadings,
    .confirm (transferWith "654321") 60000000 sampleReadings,
    .resume 3 sampleReadings, .resume 3 sampleReadings]

theorem requirePin_length
    {pin : Utf16} (hpin : requirePin pin = .ok ()) :
    pin.units.length = 6 := by
  unfold requirePin at hpin
  split_ifs at hpin with hbad
  by_contra hlength
  exact hbad (Or.inl hlength)

def samplePin (digest : Utf16) : Utf16 :=
  if digest = "f4aDm43NtEh4WTefw3mQCF3RV-j_C-tob_WSpE56A4M=" then "123456"
  else if digest = "srhsq3GyWQ-7CiP0rKvxxlFn8bRfuxKAiyTWN85fJOE=" then
    "654321"
  else ⟨digest.units.drop 21⟩

theorem samplePlatform_digest
    {pin : Utf16} (hpin : requirePin pin = .ok ())
    (hfirst : pin ≠ "123456") (hsecond : pin ≠ "654321") :
    samplePlatform.digest pin =
      ⟨("soulon.wallet.pin.v1:" : Utf16).units ++ pin.units⟩ := by
  have hunits : ∀ {other : Utf16},
      (⟨("soulon.wallet.pin.v1:" : Utf16).units ++ pin.units⟩ : Utf16) =
        ⟨("soulon.wallet.pin.v1:" : Utf16).units ++ other.units⟩ →
      pin = other := by
    intro other hsame
    cases pin
    cases other
    exact congrArg Utf16.mk (List.append_cancel_left (Utf16.mk.inj hsame))
  have hfirstText : ("soulon.wallet.pin.v1:123456" : Utf16) =
      ⟨("soulon.wallet.pin.v1:" : Utf16).units ++ ("123456" : Utf16).units⟩ :=
    by decide
  have hsecondText : ("soulon.wallet.pin.v1:654321" : Utf16) =
      ⟨("soulon.wallet.pin.v1:" : Utf16).units ++ ("654321" : Utf16).units⟩ :=
    by decide
  change sampleHash
    ⟨("soulon.wallet.pin.v1:" : Utf16).units ++ pin.units⟩ = _
  unfold sampleHash
  rw [if_neg, if_neg, if_neg]
  · intro hsame
    have hlength := congrArg Utf16.length hsame
    simp only [Utf16.length, List.length_append,
      requirePin_length hpin] at hlength
    exact absurd hlength (by decide)
  · rw [hsecondText]
    exact fun hsame => hsecond (hunits hsame)
  · rw [hfirstText]
    exact fun hsame => hfirst (hunits hsame)

theorem samplePin_digest
    {pin : Utf16} (hpin : requirePin pin = .ok ()) :
    samplePin (samplePlatform.digest pin) = pin := by
  by_cases hfirst : pin = "123456"
  · rw [hfirst]
    decide
  · by_cases hsecond : pin = "654321"
    · rw [hsecond]
      decide
    · rw [samplePlatform_digest hpin hfirst hsecond]
      have hsalt : ("soulon.wallet.pin.v1:" : Utf16).units.length = 21 := by
        decide
      have hshort : ∀ {other : Utf16}, other.length = 44 →
          (⟨("soulon.wallet.pin.v1:" : Utf16).units ++ pin.units⟩ : Utf16) ≠
            other := by
        rintro other hother rfl
        simp [Utf16.length, requirePin_length hpin, hsalt] at hother
      unfold samplePin
      rw [if_neg (hshort (by decide)),
        if_neg (hshort (by decide)), ← hsalt, List.drop_left]

theorem samplePlatform_injOn :
    Set.InjOn samplePlatform.digest {pin | requirePin pin = .ok ()} := by
  have hleft : Set.LeftInvOn samplePin samplePlatform.digest
      {pin | requirePin pin = .ok ()} :=
    fun _ hpin => samplePin_digest hpin
  exact hleft.injOn

theorem confirms_have_one_pin_in_samePinTwice :
    ∃ store,
      exec samplePlatform.step .initial samePinTwice = some store ∧
      .confirmSucceeded 1 (transferWith "123456") ∈ store.history ∧
      .confirmSucceeded 2 (transferWith "123456") ∈ store.history ∧
      .threw 3 "PIN 校验失败" ∈ store.history ∧
      store.OnePin := by
  obtain ⟨store, hrun, hhistory⟩ := Option.map_eq_some_iff.mp
    (show (exec samplePlatform.step .initial samePinTwice).map
        Store.history =
      some [.verifyStarted 0, .verified 0 (faceAt 0),
        .confirmStarted 1 60000000 (transferWith "123456"),
        .confirmStarted 2 60000000 (transferWith "123456"),
        .confirmSucceeded 1 (transferWith "123456"),
        .confirmSucceeded 2 (transferWith "123456"),
        .confirmStarted 3 60000000 (transferWith "654321"),
        .threw 3 "PIN 校验失败"] by decide)
  refine ⟨store, hrun, ?_, ?_, ?_, ?_⟩
  · simp [hhistory]
  · simp [hhistory]
  · simp [hhistory]
  · exact confirms_have_one_pin_of_unmixed_run samplePlatform_injOn
      (by decide) ⟨samePinTwice, List.prefix_rfl, hrun⟩

/-- Two confirms with different PINs start before a PIN is stored. -/
def twoFirstPins : List Turn :=
  [.verifyBiometricFactor .faceId, .complete 0 (.ok (faceAt 0)),
    .confirm (transferWith "123456") 60000000 sampleReadings,
    .confirm (transferWith "654321") 60000000 sampleReadings,
    .resume 1 sampleReadings, .resume 2 sampleReadings,
    .resume 1 sampleReadings, .resume 2 sampleReadings,
    .resume 1 sampleReadings, .resume 2 sampleReadings]

theorem confirms_have_two_pins_after_twoFirstPins :
    ¬ ∀ (platform : Platform) (turns : List Turn) (store : Store),
      Set.InjOn platform.digest {pin | requirePin pin = .ok ()} →
      exec platform.step .initial turns = some store → store.OnePin := by
  intro hall
  obtain ⟨store, hrun, hhistory⟩ := Option.map_eq_some_iff.mp
    (show (exec samplePlatform.step .initial twoFirstPins).map
        Store.history =
      some [.verifyStarted 0, .verified 0 (faceAt 0),
        .confirmStarted 1 60000000 (transferWith "123456"),
        .confirmStarted 2 60000000 (transferWith "654321"),
        .confirmSucceeded 1 (transferWith "123456"),
        .confirmSucceeded 2 (transferWith "654321")] by decide)
  have hsame := hall samplePlatform twoFirstPins store samplePlatform_injOn
    hrun 1 (transferWith "123456") 2 (transferWith "654321")
    (by simp [hhistory]) (by simp [hhistory])
  exact absurd hsame (by decide)

end SoulonWallet.Security
