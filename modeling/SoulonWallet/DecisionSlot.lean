import SoulonWallet.LabelledRun

/-!
# A request that is decided once

A machine keeps one request that is open until it is decided.  Accepting it
makes something new.  When every rejection finds the request open, the runs
in which the request is decided once are those in which every acceptance
finds it open as well.
-/

namespace SoulonWallet.DecisionSlot

open LabelledRun

variable {State Label New : Type*}

inductive Decision (New : Type*) where
  | approved (new : New)
  | rejected

/-- What the decisions have made. -/
def approvals (decisions : List (Decision New)) : List New :=
  decisions.filterMap fun
    | .approved new => some new
    | .rejected => none

/-- At most one thing is made, and none after a rejection. -/
def DecidedOnce (decisions : List (Decision New)) : Prop :=
  (approvals decisions).length ≤ 1 ∧
    ∀ new, ¬ List.Sublist [.rejected, .approved new] decisions

theorem decidedOnce_nil : DecidedOnce ([] : List (Decision New)) := by
  constructor
  · exact Nat.zero_le 1
  · intro new hsublist
    cases hsublist

theorem DecidedOnce.rejected
    {decisions : List (Decision New)} (honce : DecidedOnce decisions) :
    DecidedOnce (decisions ++ [.rejected]) := by
  constructor
  · simpa [approvals] using honce.1
  · intro new hsublist
    rcases sublist_concat [Decision.rejected] hsublist with
      hold | ⟨hnew, -⟩
    · exact honce.2 new hold
    · cases hnew

/-- An acceptance has to be the first decision. -/
theorem decidedOnce_concat_approved_iff
    {decisions : List (Decision New)} {new : New} :
    DecidedOnce (decisions ++ [.approved new]) ↔ decisions = [] := by
  constructor
  · rintro ⟨hlength, hnone⟩
    cases decisions with
    | nil => rfl
    | cons decision rest =>
        cases decision with
        | approved old => simp [approvals] at hlength
        | rejected =>
            refine absurd ?_ (hnone new)
            exact (List.sublist_append_right rest [.approved new]).cons_cons
              .rejected
  · rintro rfl
    constructor
    · exact le_rfl
    · intro other hsublist
      have hlength := hsublist.length_le
      simp at hlength

/-- A machine with one request: whether it is open, how it has been decided,
and which labels accept it. -/
structure Machine (State Label New : Type*) where
  step : State → Label → Option State
  Open : State → Prop
  decisions : State → List (Decision New)
  Accepts : State → Label → Prop

/-- What a step can do about the request: nothing, accept it, or reject it
while it is open. -/
inductive Machine.Moves (machine : Machine State Label New)
    (state : State) (label : Label) (next : State) : Prop
  | keeps (haccepts : ¬ machine.Accepts state label)
      (hopen : machine.Open next ↔ machine.Open state)
      (hdecisions : machine.decisions next = machine.decisions state)
  | accepts {new : New} (haccepts : machine.Accepts state label)
      (hopen : ¬ machine.Open next)
      (hdecisions :
        machine.decisions next = machine.decisions state ++ [.approved new])
  | rejects (haccepts : ¬ machine.Accepts state label)
      (hbefore : machine.Open state) (hopen : ¬ machine.Open next)
      (hdecisions :
        machine.decisions next = machine.decisions state ++ [.rejected])

/-- The request is open exactly as long as it is undecided. -/
def Machine.Undecided (machine : Machine State Label New)
    (state : State) : Prop :=
  machine.Open state ↔ machine.decisions state = []

variable {machine : Machine State Label New} {state next : State}
variable {label : Label}

theorem Machine.Moves.undecided
    (hmoves : machine.Moves state label next)
    (hundecided : machine.Undecided state) :
    machine.Undecided next := by
  unfold Machine.Undecided at hundecided ⊢
  cases hmoves with
  | keeps haccepts hopen hdecisions => rw [hopen, hdecisions, hundecided]
  | accepts haccepts hopen hdecisions => simp [hopen, hdecisions]
  | rejects haccepts hbefore hopen hdecisions => simp [hopen, hdecisions]

theorem Machine.Moves.decidedOnce_iff
    (hmoves : machine.Moves state label next)
    (hundecided : machine.Undecided state)
    (honce : DecidedOnce (machine.decisions state)) :
    DecidedOnce (machine.decisions next) ↔
      (machine.Accepts state label → machine.Open state) := by
  cases hmoves with
  | keeps haccepts hopen hdecisions =>
      rw [hdecisions]
      exact ⟨fun _ hlabel => absurd hlabel haccepts, fun _ => honce⟩
  | accepts haccepts hopen hdecisions =>
      unfold Machine.Undecided at hundecided
      rw [hdecisions, decidedOnce_concat_approved_iff, ← hundecided]
      exact ⟨fun hbefore _ => hbefore, fun hbefore => hbefore haccepts⟩
  | rejects haccepts hbefore hopen hdecisions =>
      rw [hdecisions]
      exact ⟨fun _ _ => hbefore, fun _ => honce.rejected⟩

/-- A run decides the request once if and only if every acceptance finds it
open. -/
theorem Machine.decidedOnce_iff_guarded
    (machine : Machine State Label New)
    (hmoves : ∀ state label next, machine.step state label = some next →
      machine.Moves state label next)
    {start : State} {labels : List Label}
    (hopen : machine.Open start) (hstart : machine.decisions start = []) :
    (∀ state, Visits machine.step start labels state →
        DecidedOnce (machine.decisions state)) ↔
      Guarded machine.step
        (fun state label => machine.Accepts state label → machine.Open state)
        start labels := by
  apply forall_visits_iff_guarded machine.Undecided
    (fun state => DecidedOnce (machine.decisions state))
  · intro state label next hundecided hstep
    exact (hmoves state label next hstep).undecided hundecided
  · intro state label next hundecided honce hstep
    exact (hmoves state label next hstep).decidedOnce_iff hundecided honce
  · exact ⟨fun _ => hstart, fun _ => hopen⟩
  · rw [hstart]
    exact decidedOnce_nil

end SoulonWallet.DecisionSlot
