import Mathlib.Data.List.Forall2

/-!
# Calls that can fail

A sequence of calls, or a call for every element of a list, succeeds when
each of them does.
-/

namespace SoulonWallet

universe u

variable {Failure Input : Type*} {Answer Next : Type u}

theorem bind_eq_ok_iff
    {first : Except Failure Answer} {rest : Answer → Except Failure Next}
    {next : Next} :
    (first >>= rest) = .ok next ↔
      ∃ answer, first = .ok answer ∧ rest answer = .ok next := by
  cases first with
  | error err => simp [bind, Except.bind]
  | ok answer => simp [bind, Except.bind]

/-- A value that is had once a call has succeeded. -/
theorem map_const_eq_ok_iff
    {Value : Type*} {first : Except Failure Unit} {value next : Value} :
    (first.map fun _ => value) = .ok next ↔
      value = next ∧ first = .ok () := by
  cases first with
  | error err => simp [Except.map]
  | ok _ => simp [Except.map]

theorem mapM_eq_ok_iff
    {call : Input → Except Failure Answer} {inputs : List Input}
    {answers : List Answer} :
    inputs.mapM call = .ok answers ↔
      List.Forall₂ (fun input answer => call input = .ok answer)
        inputs answers := by
  induction inputs generalizing answers with
  | nil =>
      rw [List.mapM_nil, List.forall₂_nil_left_iff]
      exact ⟨fun hnil => (Except.ok.inj hnil).symm, fun hnil => hnil ▸ rfl⟩
  | cons input inputs ih =>
      rw [List.mapM_cons, bind_eq_ok_iff, List.forall₂_cons_left_iff]
      constructor
      · rintro ⟨answer, hanswer, hrest⟩
        obtain ⟨rest, hrest, hpure⟩ := bind_eq_ok_iff.mp hrest
        exact ⟨answer, rest, hanswer, ih.mp hrest,
          (Except.ok.inj hpure).symm⟩
      · rintro ⟨answer, rest, hanswer, hrest, rfl⟩
        exact ⟨answer, hanswer, bind_eq_ok_iff.mpr
          ⟨rest, ih.mpr hrest, rfl⟩⟩

theorem mapM_append_cons_eq_ok_iff
    {call : Input → Except Failure Answer} {front back : List Input}
    {input : Input} {answers : List Answer} :
    (front ++ input :: back).mapM call = .ok answers ↔
      ∃ before answer after, answers = before ++ answer :: after ∧
        front.mapM call = .ok before ∧ call input = .ok answer ∧
          back.mapM call = .ok after := by
  simp only [List.mapM_append, List.mapM_cons, bind_eq_ok_iff]
  constructor
  · rintro ⟨before, hbefore, _, ⟨answer, hanswer, after, hafter, hrest⟩, hpure⟩
    obtain rfl := Except.ok.inj hrest
    exact ⟨before, answer, after, (Except.ok.inj hpure).symm, hbefore,
      hanswer, hafter⟩
  · rintro ⟨before, answer, after, rfl, hbefore, hanswer, hafter⟩
    exact ⟨before, hbefore, _, ⟨answer, hanswer, after, hafter, rfl⟩, rfl⟩

end SoulonWallet
