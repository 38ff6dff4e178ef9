import Mathlib.Data.List.Basic
import Mathlib.Data.Prod.Basic

/-!
# Chains of digests

A state and a label make a call, and the digest of the call is the next state.
Two chains of the same length that end in states of the same look had the same
start and the same labels, or made two different calls at the same place whose
digests look the same.  Nothing is assumed of the digest.
-/

namespace SoulonWallet

/-- A call tells the state and the label it was made with. -/
structure DigestChain (State Label Call : Type*) where
  call : State → Label → Call
  digest : Call → State
  call_injective : ∀ {state state' label label'},
    call state label = call state' label' → state = state' ∧ label = label'

namespace DigestChain

variable {State Label Call View : Type*}
  (chain : DigestChain State Label Call)

def next (state : State) (label : Label) : State :=
  chain.digest (chain.call state label)

def run (state : State) (labels : List Label) : State :=
  labels.foldl chain.next state

/-- The calls that are made, in order. -/
def calls : State → List Label → List Call
  | _, [] => []
  | state, label :: rest =>
      chain.call state label :: calls (chain.next state label) rest

/-- Two different calls at the same place whose digests look the same. -/
def Collide (view : State → View) (left right : List Call) : Prop :=
  ∃ pair ∈ left.zip right,
    pair.1 ≠ pair.2 ∧ view (chain.digest pair.1) = view (chain.digest pair.2)

variable {chain} {view : State → View}

theorem Collide.cons
    {left right : List Call} (hcollide : chain.Collide view left right)
    (call call' : Call) :
    chain.Collide view (call :: left) (call' :: right) := by
  obtain ⟨pair, hpair, hdigests⟩ := hcollide
  exact ⟨pair, List.mem_cons_of_mem _ hpair, hdigests⟩

/-- One call more: the same state and label, or a collision right here. -/
theorem same_or_collide_call
    {state state' : State} {label label' : Label} (left right : List Call)
    (hsame : view (chain.next state label) = view (chain.next state' label')) :
    (state = state' ∧ label = label') ∨
      chain.Collide view (chain.call state label :: left)
        (chain.call state' label' :: right) := by
  by_cases hcalls : chain.call state label = chain.call state' label'
  · exact Or.inl (chain.call_injective hcalls)
  · exact Or.inr ⟨(_, _), List.mem_cons_self, hcalls, hsame⟩

theorem same_or_collide
    {state state' : State} {labels labels' : List Label}
    (hne : labels ≠ []) (hlength : labels.length = labels'.length)
    (hsame : view (chain.run state labels) =
      view (chain.run state' labels')) :
    (state = state' ∧ labels = labels') ∨
      chain.Collide view (chain.calls state labels)
        (chain.calls state' labels') := by
  induction labels generalizing state state' labels' with
  | nil => exact absurd rfl hne
  | cons label rest ih =>
      cases labels' with
      | nil => exact absurd hlength (Nat.succ_ne_zero _)
      | cons label' rest' =>
          have hrest : rest.length = rest'.length := Nat.succ.inj hlength
          cases rest with
          | nil =>
              cases List.length_eq_zero_iff.mp hrest.symm
              exact (same_or_collide_call _ _ hsame).imp_left
                fun hboth => ⟨hboth.1, congrArg (· :: []) hboth.2⟩
          | cons second rest =>
              rcases ih (List.cons_ne_nil _ _) hrest hsame with
                ⟨hnext, hlabels⟩ | hcollide
              · exact (same_or_collide_call _ _ (congrArg view hnext)).imp_left
                  fun hboth =>
                    ⟨hboth.1, List.cons_eq_cons.mpr ⟨hboth.2, hlabels⟩⟩
              · exact Or.inr (hcollide.cons _ _)

end DigestChain

end SoulonWallet
