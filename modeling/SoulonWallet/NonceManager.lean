import Mathlib.Tactic
import SoulonWallet.KeyedMap
import SoulonWallet.LabelledRun

/-!
# The nonce manager of the wallet

`createNonceManager` caches the next sequence number of an account.  The
single-threaded event loop interleaves the calls on one manager at their
awaits: a call of `sync` waits for `getSequence`, and a call of `reserve` that
finds no cached number waits for its own `sync`.  The answer of `getSequence`
runs the rest of `sync`, and the rest of `reserve` runs in a later turn.

Sequence numbers are JavaScript numbers; cosmjs only returns safe integers,
and above them adding one to `2 ^ 53` gives `2 ^ 53` again.
-/

namespace SoulonWallet.Nonce

open LabelledRun

inductive Await where
  | syncing
  | reserving
  | synced
  deriving DecidableEq

structure NonceManager where
  nextNonce : Option ℕ
  calls : KeyedMap ℕ Await
  nextCall : ℕ
  returned : List ℕ

inductive Turn where
  | reserve
  | sync
  | reset
  | answer (call sequence : ℕ)
  | reject (call : ℕ)
  | resume (call : ℕ)
  deriving DecidableEq

/-- The number `2 ^ 53`, from which on `n + 1` is `n` for JavaScript. -/
def precisionLimit : ℕ := 2 ^ 53

def plusOne (number : ℕ) : ℕ :=
  if number < precisionLimit then number + 1 else number

namespace NonceManager

def initial : NonceManager where
  nextNonce := none
  calls := ∅
  nextCall := 0
  returned := []

def await (manager : NonceManager) (reason : Await) : NonceManager :=
  { manager with
    calls := manager.calls.insert manager.nextCall reason
    nextCall := manager.nextCall + 1 }

/-- The statements of `reserve` after its await. -/
def takeNonce (manager : NonceManager) : NonceManager :=
  let reserved := manager.nextNonce.getD 0
  { manager with
    nextNonce := some (plusOne reserved)
    returned := manager.returned ++ [reserved] }

def reserve (manager : NonceManager) : NonceManager :=
  match manager.nextNonce with
  | none => manager.await .reserving
  | some _ => manager.takeNonce

def step (manager : NonceManager) : Turn → Option NonceManager
  | .reserve => some manager.reserve
  | .sync => some (manager.await .syncing)
  | .reset => some { manager with nextNonce := none }
  | .answer call sequence =>
      match manager.calls.lookup call with
      | some .syncing =>
          some { manager with
            nextNonce := some sequence
            calls := manager.calls.erase call }
      | some .reserving =>
          some { manager with
            nextNonce := some sequence
            calls := manager.calls.insert call .synced }
      | _ => none
  | .reject call =>
      match manager.calls.lookup call with
      | some .syncing | some .reserving =>
          some { manager with calls := manager.calls.erase call }
      | _ => none
  | .resume call =>
      match manager.calls.lookup call with
      | some .synced =>
          some { manager with calls := manager.calls.erase call }.takeNonce
      | _ => none

end NonceManager

/-! ## Runs of `reserve` alone -/

/-- The turns of a run in which only `reserve` is called and `getSequence`
always answers. -/
inductive ReserveTurn where
  | reserve
  | answer (call : ℕ)
  | resume (call : ℕ)
  deriving DecidableEq

def ReserveTurn.toTurn (sequence : ℕ) : ReserveTurn → Turn
  | .reserve => .reserve
  | .answer call => .answer call sequence
  | .resume call => .resume call

namespace NonceManager

def reserveStep (sequence : ℕ) (manager : NonceManager)
    (turn : ReserveTurn) : Option NonceManager :=
  manager.step (turn.toTurn sequence)

/-- The `n` numbers returned so far are `sequence, …, sequence + n - 1`, each
of them once. -/
def Exact (sequence : ℕ) (manager : NonceManager) : Prop :=
  manager.returned.Nodup ∧
    ∀ nonce, nonce ∈ manager.returned ↔
      sequence ≤ nonce ∧ nonce < sequence + manager.returned.length

/-- `getSequence` answers before the first number is returned, and a number
is returned while the next one is still exact. -/
def InOrder (sequence : ℕ) (manager : NonceManager) : ReserveTurn → Prop
  | .answer _ => manager.returned = []
  | _ => sequence + manager.returned.length ≤ precisionLimit

instance (sequence : ℕ) (manager : NonceManager) :
    (turn : ReserveTurn) → Decidable (manager.InOrder sequence turn)
  | .answer _ => inferInstanceAs (Decidable (manager.returned = []))
  | .reserve | .resume _ => inferInstanceAs (Decidable
      (sequence + manager.returned.length ≤ precisionLimit))

/-- Invariant of these runs: no call of `sync` is in flight, and nothing is
cached only before the first answer. -/
structure ReserveOnly (manager : NonceManager) : Prop where
  no_sync : ∀ call, manager.calls.lookup call ≠ some .syncing
  of_none : manager.nextNonce = none →
    manager.returned = [] ∧
      ∀ call, manager.calls.lookup call ≠ some .synced

/-- The cached number continues the numbers returned. -/
structure Continues (sequence : ℕ) (manager : NonceManager) : Prop where
  returned_eq : manager.returned =
    List.range' sequence manager.returned.length
  length_le : sequence + manager.returned.length ≤ precisionLimit + 1
  next_eq : ∀ next, manager.nextNonce = some next →
    next = min (sequence + manager.returned.length) precisionLimit

def Rewound (sequence : ℕ) (manager : NonceManager) : Prop :=
  manager.nextNonce = some sequence ∧ sequence ∈ manager.returned ∧
    ∃ call, manager.calls.lookup call = some .synced

def Repeats (sequence : ℕ) (manager : NonceManager) : Prop :=
  2 ≤ manager.returned.count sequence

variable {sequence : ℕ}

/-- What a turn of such a run does: it waits, caches the answer, or takes a
number, the last with or without a call in flight. -/
theorem ReserveOnly.step_cases
    {manager next : NonceManager} {turn : ReserveTurn}
    (honly : manager.ReserveOnly)
    (hstep : manager.reserveStep sequence turn = some next) :
    (turn = .reserve ∧ manager.nextNonce = none ∧
        next = manager.await .reserving) ∨
      (∃ call, turn = .answer call ∧
        next = { manager with
          nextNonce := some sequence
          calls := manager.calls.insert call .synced }) ∨
      (turn = .reserve ∧ manager.nextNonce ≠ none ∧
        next = manager.takeNonce) ∨
      (∃ call, turn = .resume call ∧ manager.nextNonce ≠ none ∧
        next =
          { manager with calls := manager.calls.erase call }.takeNonce) := by
  cases turn with
  | reserve =>
      simp only [reserveStep, ReserveTurn.toTurn, step, reserve,
        Option.some.injEq] at hstep
      cases hnext : manager.nextNonce with
      | none =>
          rw [hnext] at hstep
          exact Or.inl ⟨rfl, rfl, hstep.symm⟩
      | some nonce =>
          rw [hnext] at hstep
          exact Or.inr (Or.inr (Or.inl ⟨rfl, by simp, hstep.symm⟩))
  | answer call =>
      simp only [reserveStep, ReserveTurn.toTurn, step] at hstep
      split at hstep
      next hcall => exact absurd hcall (honly.no_sync call)
      next hcall =>
        simp only [Option.some.injEq] at hstep
        exact Or.inr (Or.inl ⟨call, rfl, hstep.symm⟩)
      next => simp at hstep
  | resume call =>
      simp only [reserveStep, ReserveTurn.toTurn, step] at hstep
      split at hstep
      next hcall =>
        have hcached : manager.nextNonce ≠ none := by
          intro hnone
          exact (honly.of_none hnone).2 call hcall
        simp only [Option.some.injEq] at hstep
        exact Or.inr (Or.inr (Or.inr ⟨call, rfl, hcached, hstep.symm⟩))
      next => simp at hstep

theorem initial_reserveOnly : initial.ReserveOnly where
  no_sync := by simp [initial]
  of_none := by simp [initial]

theorem ReserveOnly.step
    {manager next : NonceManager} {turn : ReserveTurn}
    (honly : manager.ReserveOnly)
    (hstep : manager.reserveStep sequence turn = some next) :
    next.ReserveOnly := by
  have herase : ∀ call other reason,
      (manager.calls.erase call).lookup other = some reason →
        manager.calls.lookup other = some reason := by
    intro call other reason hlookup
    by_cases heq : other = call
    · subst other
      simp at hlookup
    · rwa [AList.lookup_erase_ne heq] at hlookup
  rcases honly.step_cases hstep with
    ⟨-, hnone, rfl⟩ | ⟨call, -, rfl⟩ | ⟨-, -, rfl⟩ | ⟨call, -, -, rfl⟩
  · constructor
    · intro other
      by_cases heq : other = manager.nextCall
      · subst other
        simp [await]
      · simpa [await, AList.lookup_insert_ne heq] using honly.no_sync other
    · intro _
      refine ⟨(honly.of_none hnone).1, ?_⟩
      intro other
      by_cases heq : other = manager.nextCall
      · subst other
        simp [await]
      · simpa [await, AList.lookup_insert_ne heq] using
          (honly.of_none hnone).2 other
  · constructor
    · intro other
      by_cases heq : other = call
      · subst other
        simp
      · simpa [AList.lookup_insert_ne heq] using honly.no_sync other
    · simp
  · constructor
    · exact honly.no_sync
    · simp [takeNonce]
  · constructor
    · intro other hlookup
      exact honly.no_sync other (herase call other _ hlookup)
    · simp [takeNonce]

theorem initial_continues (hsafe : sequence < precisionLimit) :
    Continues sequence initial where
  returned_eq := by simp [initial]
  length_le := by
    simp only [initial, List.length_nil]
    omega
  next_eq := by simp [initial]

theorem Continues.takeNonce_iff
    {manager : NonceManager} (hcontinues : Continues sequence manager)
    (hcached : manager.nextNonce ≠ none) :
    Continues sequence manager.takeNonce ↔
      sequence + manager.returned.length ≤ precisionLimit := by
  obtain ⟨nonce, hnonce⟩ := Option.ne_none_iff_exists'.mp hcached
  have hnext := hcontinues.next_eq nonce hnonce
  have hlength : manager.takeNonce.returned.length =
      manager.returned.length + 1 := by
    simp [takeNonce]
  constructor
  · intro htaken
    have hle := htaken.length_le
    omega
  · intro hle
    have hreserved : nonce = sequence + manager.returned.length := by
      omega
    constructor
    · rw [hlength, List.range'_concat, ← hcontinues.returned_eq]
      simp [takeNonce, hnonce, hreserved]
    · omega
    · intro next htaken
      have hplus : plusOne nonce = next := by
        simpa [takeNonce, hnonce] using htaken
      rw [hlength, ← hplus, plusOne]
      split <;> omega

/-- The one-step characterization: a turn keeps the count exactly when it is
in order. -/
theorem Continues.step_iff
    {manager next : NonceManager} {turn : ReserveTurn}
    (hsafe : sequence < precisionLimit)
    (honly : manager.ReserveOnly) (hcontinues : Continues sequence manager)
    (hstep : manager.reserveStep sequence turn = some next) :
    Continues sequence next ↔ manager.InOrder sequence turn := by
  rcases honly.step_cases hstep with
    ⟨rfl, hnone, rfl⟩ | ⟨call, rfl, rfl⟩ | ⟨rfl, hcached, rfl⟩ |
      ⟨call, rfl, hcached, rfl⟩
  · have hempty := (honly.of_none hnone).1
    have hkeeps : Continues sequence (manager.await .reserving) :=
      ⟨hcontinues.returned_eq, hcontinues.length_le, hcontinues.next_eq⟩
    simp only [hkeeps, InOrder, hempty, List.length_nil, true_iff]
    omega
  · constructor
    · intro hanswered
      have hnext := hanswered.next_eq sequence rfl
      simp only at hnext
      apply List.length_eq_zero_iff.mp
      omega
    · intro hempty
      refine ⟨hcontinues.returned_eq, hcontinues.length_le, ?_⟩
      intro next hnext
      simp only [InOrder] at hempty
      simp only [Option.some.injEq] at hnext
      simp only [hempty, List.length_nil]
      omega
  · exact hcontinues.takeNonce_iff hcached
  · have hresumed : Continues sequence
        { manager with calls := manager.calls.erase call } :=
      ⟨hcontinues.returned_eq, hcontinues.length_le, hcontinues.next_eq⟩
    exact hresumed.takeNonce_iff hcached

theorem Continues.exact
    {manager : NonceManager} (hcontinues : Continues sequence manager) :
    manager.Exact sequence := by
  have hrange := hcontinues.returned_eq
  constructor
  · rw [hrange]
    exact List.nodup_range'
  · intro nonce
    conv_lhs => rw [hrange]
    simp [List.mem_range'_1]

/-- A turn out of order repeats a number at once, or rewinds the counter under
a call that has still to take its number. -/
theorem Continues.rewound_or_not_exact
    {manager next : NonceManager} {turn : ReserveTurn}
    (hsafe : sequence < precisionLimit)
    (honly : manager.ReserveOnly) (hcontinues : Continues sequence manager)
    (hstep : manager.reserveStep sequence turn = some next)
    (hbroken : ¬ Continues sequence next) :
    next.Rewound sequence ∨ ¬ next.Exact sequence := by
  have hlate := mt (hcontinues.step_iff hsafe honly hstep).mpr hbroken
  have hlength := hcontinues.length_le
  have hmem : ∀ nonce, nonce ∈ manager.returned ↔
      sequence ≤ nonce ∧ nonce < sequence + manager.returned.length :=
    hcontinues.exact.2
  have hrepeated : ∀ nonce, manager.nextNonce = some nonce →
      ¬ sequence + manager.returned.length ≤ precisionLimit →
        ¬ (manager.returned ++ [manager.nextNonce.getD 0]).Nodup := by
    intro nonce hnonce hover hnodup
    have hnext := hcontinues.next_eq nonce hnonce
    have hagain : nonce ∈ manager.returned := by
      rw [hmem]
      omega
    rw [List.nodup_append, hnonce] at hnodup
    exact hnodup.2.2 nonce hagain nonce (by simp) rfl
  rcases honly.step_cases hstep with
    ⟨rfl, hnone, rfl⟩ | ⟨call, rfl, rfl⟩ | ⟨rfl, hcached, rfl⟩ |
      ⟨call, rfl, hcached, rfl⟩
  · have hempty := (honly.of_none hnone).1
    simp only [InOrder, hempty, List.length_nil] at hlate
    omega
  · have hpositive : 0 < manager.returned.length :=
      List.length_pos_iff.mpr hlate
    refine Or.inl ⟨rfl, ?_, call, by simp⟩
    rw [hmem]
    omega
  · obtain ⟨nonce, hnonce⟩ := Option.ne_none_iff_exists'.mp hcached
    exact Or.inr fun hexact => hrepeated nonce hnonce hlate hexact.1
  · obtain ⟨nonce, hnonce⟩ := Option.ne_none_iff_exists'.mp hcached
    exact Or.inr fun hexact => hrepeated nonce hnonce hlate hexact.1

theorem Repeats.not_exact
    {manager : NonceManager} (hrepeats : manager.Repeats sequence) :
    ¬ manager.Exact sequence := by
  intro hexact
  have hle := List.nodup_iff_count_le_one.mp hexact.1 sequence
  unfold Repeats at hrepeats
  omega

/-- Whoever takes the next number after the counter was rewound repeats the
first one. -/
theorem rewound_or_repeats_step
    {manager next : NonceManager} {turn : ReserveTurn}
    (honly : manager.ReserveOnly)
    (hdoomed : manager.Rewound sequence ∨ manager.Repeats sequence)
    (hstep : manager.reserveStep sequence turn = some next) :
    next.Rewound sequence ∨ next.Repeats sequence := by
  have htaken :
      2 ≤ (manager.returned ++ [manager.nextNonce.getD 0]).count sequence := by
    rw [List.count_append]
    rcases hdoomed with ⟨hnext, hmem, -⟩ | hrepeats
    · have hcount := List.count_pos_iff.mpr hmem
      simp only [hnext, Option.getD_some, List.count_singleton_self]
      omega
    · exact le_trans hrepeats (Nat.le_add_right _ _)
  rcases honly.step_cases hstep with
    ⟨-, hnone, rfl⟩ | ⟨call, -, rfl⟩ | ⟨-, -, rfl⟩ | ⟨call, -, -, rfl⟩
  · rcases hdoomed with ⟨hnext, -⟩ | hrepeats
    · simp [hnext] at hnone
    · exact Or.inr hrepeats
  · rcases hdoomed with ⟨-, hmem, -⟩ | hrepeats
    · exact Or.inl ⟨rfl, hmem, call, by simp⟩
    · exact Or.inr hrepeats
  · exact Or.inr htaken
  · exact Or.inr htaken

theorem rewound_not_exact_of_idle
    {manager final : NonceManager} {turns : List ReserveTurn}
    (honly : manager.ReserveOnly) (hrewound : manager.Rewound sequence)
    (hrun : exec (reserveStep sequence) manager turns = some final)
    (hidle : final.calls = ∅) :
    ¬ final.Exact sequence := by
  have hdoomed : final.ReserveOnly ∧
      (final.Rewound sequence ∨ final.Repeats sequence) := by
    apply invariant_of_step
      (fun state : NonceManager => state.ReserveOnly ∧
        (state.Rewound sequence ∨ state.Repeats sequence)) ?_
      ⟨honly, Or.inl hrewound⟩ hrun
    intro state turn next hstate hstep
    exact ⟨hstate.1.step hstep,
      rewound_or_repeats_step hstate.1 hstate.2 hstep⟩
  rcases hdoomed.2 with ⟨-, -, call, hcall⟩ | hrepeats
  · simp [hidle] at hcall
  · exact hrepeats.not_exact

/-- In a run in which only `reserve` is called and every answer is
`sequence`, all numbers returned are exact if the turns are in order, and only
then once all calls have completed. -/
theorem reserve_exact_iff
    (hsafe : sequence < precisionLimit)
    {turns : List ReserveTurn} {final : NonceManager}
    (hrun : exec (reserveStep sequence) initial turns = some final) :
    (Guarded (reserveStep sequence) (InOrder sequence) initial turns →
        ∀ manager,
          Visits (reserveStep sequence) initial turns manager →
            manager.Exact sequence) ∧
      (final.calls = ∅ →
        (∀ manager,
          Visits (reserveStep sequence) initial turns manager →
            manager.Exact sequence) →
        Guarded (reserveStep sequence) (InOrder sequence) initial turns) := by
  have hcount :
      (∀ manager, Visits (reserveStep sequence) initial turns manager →
        Continues sequence manager) ↔
        Guarded (reserveStep sequence) (InOrder sequence) initial turns := by
    apply forall_visits_iff_guarded ReserveOnly (Continues sequence)
    · intro manager turn next honly hstep
      exact honly.step hstep
    · intro manager turn next honly hcontinues hstep
      exact hcontinues.step_iff hsafe honly hstep
    · exact initial_reserveOnly
    · exact initial_continues hsafe
  constructor
  · intro hguard manager hvisit
    exact (hcount.mpr hguard manager hvisit).exact
  · intro hidle hexact
    apply hcount.mp
    intro manager hvisit
    by_contra hbroken
    rcases exists_leaving (Continues sequence) (initial_continues hsafe)
        hvisit hbroken hrun with
      ⟨front, turn, back, middle, next, hfront, hcontinues, hstep, hleft,
        hnext, hback⟩
    have honly : middle.ReserveOnly :=
      invariant_of_step ReserveOnly
        (fun _ _ _ honly hstep => honly.step hstep) initial_reserveOnly hfront
    rcases hcontinues.rewound_or_not_exact hsafe honly hstep hleft with
      hrewound | hrepeated
    · exact rewound_not_exact_of_idle (honly.step hstep) hrewound hback hidle
        (hexact final ⟨turns, List.prefix_rfl, hrun⟩)
    · exact hrepeated (hexact next hnext)

def orderedTurns : List ReserveTurn :=
  [.reserve, .reserve, .answer 0, .answer 1, .resume 0, .resume 1, .reserve]

theorem reserve_exact_orderedTurns :
    ∃ final,
      exec (reserveStep 7) initial orderedTurns = some final ∧
        final.returned = [7, 8, 9] ∧ final.Exact 7 := by
  have hsafe : 7 < precisionLimit := by decide
  have hguard :
      Guarded (reserveStep 7) (InOrder 7) initial orderedTurns := by
    decide
  exact ⟨_, rfl, rfl, (reserve_exact_iff hsafe rfl).1 hguard _
    ⟨orderedTurns, List.prefix_rfl, rfl⟩⟩

/-- The second answer arrives after the first number was returned. -/
theorem reserve_repeats_late_answer :
    ∃ final,
      exec (reserveStep 7) initial
          [.reserve, .reserve, .answer 0, .resume 0, .answer 1, .resume 1] =
        some final ∧
        final.returned = [7, 7] ∧ ¬ final.Exact 7 := by
  refine ⟨_, rfl, rfl, ?_⟩
  intro hexact
  exact absurd hexact.1 (by decide)

end NonceManager

end SoulonWallet.Nonce
