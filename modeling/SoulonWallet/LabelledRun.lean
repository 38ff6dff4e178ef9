import Mathlib.Tactic

/-!
# Runs of a labelled partial machine

A machine is a partial step function: `step state label` is the state after
`label`, or `none` when the label is not enabled.  A run executes a word of
labels.  Besides the usual induction rules this file treats guarded runs, in
which every label satisfies a condition on the state it is taken in, and the
rule that turns a one-step characterization of a property into a
characterization of the whole runs that keep it.  The last part compares two
total machines through what they let an observer see after every label, and
says where the events of a growing history can stand.
-/

namespace SoulonWallet.LabelledRun

variable {State Label : Type*}

/-- The state after a word of labels, `none` when one of them is disabled. -/
def exec (step : State → Label → Option State) :
    State → List Label → Option State
  | state, [] => some state
  | state, label :: rest =>
      match step state label with
      | none => none
      | some next => exec step next rest

/-- Every label that is taken satisfies `guard` in the state it is taken
in. -/
def Guarded (step : State → Label → Option State)
    (guard : State → Label → Prop) : State → List Label → Prop
  | _, [] => True
  | state, label :: rest =>
      match step state label with
      | none => True
      | some next => guard state label ∧ Guarded step guard next rest

/-- The run of `labels` from `start` passes through `state`. -/
def Visits (step : State → Label → Option State)
    (start : State) (labels : List Label) (state : State) : Prop :=
  ∃ before, before <+: labels ∧ exec step start before = some state

variable {step : State → Label → Option State}
variable {guard : State → Label → Prop}

@[simp] theorem exec_nil (state : State) :
    exec step state [] = some state := rfl

theorem exec_cons_eq_some
    {state finish : State} {label : Label} {rest : List Label} :
    exec step state (label :: rest) = some finish ↔
      ∃ next, step state label = some next ∧
        exec step next rest = some finish := by
  cases hstep : step state label with
  | none => simp [exec, hstep]
  | some next => simp [exec, hstep]

theorem guarded_cons_of_step
    {state next : State} {label : Label} {rest : List Label}
    (hstep : step state label = some next) :
    Guarded step guard state (label :: rest) ↔
      guard state label ∧ Guarded step guard next rest := by
  simp [Guarded, hstep]

instance decidableGuarded [∀ state label, Decidable (guard state label)] :
    (state : State) → (labels : List Label) →
      Decidable (Guarded step guard state labels)
  | _, [] => .isTrue trivial
  | state, label :: rest =>
      match hstep : step state label with
      | none => .isTrue (by simp [Guarded, hstep])
      | some next =>
          have := decidableGuarded next rest
          decidable_of_iff (guard state label ∧ Guarded step guard next rest)
            (guarded_cons_of_step hstep).symm

/-- The guard of a run holds of its two halves, the second one from the
state in the middle. -/
theorem Guarded.split
    {state middle : State} {front back : List Label}
    (hguard : Guarded step guard state (front ++ back))
    (hmiddle : exec step state front = some middle) :
    Guarded step guard state front ∧ Guarded step guard middle back := by
  induction front generalizing state with
  | nil =>
      simp only [exec_nil, Option.some.injEq] at hmiddle
      subst middle
      exact ⟨trivial, hguard⟩
  | cons label rest ih =>
      obtain ⟨next, hstep, hrest⟩ := exec_cons_eq_some.mp hmiddle
      rw [List.cons_append, guarded_cons_of_step hstep] at hguard
      obtain ⟨hfront, hback⟩ := ih hguard.2 hrest
      exact ⟨(guarded_cons_of_step hstep).mpr ⟨hguard.1, hfront⟩, hback⟩

theorem Guarded.and
    {other : State → Label → Prop} {state : State} {labels : List Label}
    (hguard : Guarded step guard state labels)
    (hother : Guarded step other state labels) :
    Guarded step (fun state label => guard state label ∧ other state label)
      state labels := by
  induction labels generalizing state with
  | nil => trivial
  | cons label rest ih =>
      cases hstep : step state label with
      | none => simp [Guarded, hstep]
      | some next =>
          rw [guarded_cons_of_step hstep] at hguard hother ⊢
          exact ⟨⟨hguard.1, hother.1⟩, ih hguard.2 hother.2⟩

theorem invariant_of_guarded
    (Inv : State → Prop)
    (hkeep : ∀ state label next, Inv state → guard state label →
      step state label = some next → Inv next)
    {state finish : State} {labels : List Label}
    (hinit : Inv state) (hguard : Guarded step guard state labels)
    (hrun : exec step state labels = some finish) :
    Inv finish := by
  induction labels generalizing state with
  | nil =>
      simp only [exec_nil, Option.some.injEq] at hrun
      exact hrun ▸ hinit
  | cons label rest ih =>
      obtain ⟨next, hstep, hrest⟩ := exec_cons_eq_some.mp hrun
      rw [guarded_cons_of_step hstep] at hguard
      exact ih (hkeep state label next hinit hguard.1 hstep) hguard.2 hrest

/-- In a guarded run that keeps an invariant, every label satisfies what the
invariant and the guard imply. -/
theorem Guarded.imp_of_invariant
    {other : State → Label → Prop} (Inv : State → Prop)
    (hkeep : ∀ state label next, Inv state → guard state label →
      step state label = some next → Inv next)
    (himp : ∀ state label, Inv state → guard state label →
      other state label)
    {state : State} {labels : List Label} (hinit : Inv state)
    (hguard : Guarded step guard state labels) :
    Guarded step other state labels := by
  induction labels generalizing state with
  | nil => trivial
  | cons label rest ih =>
      cases hstep : step state label with
      | none => simp [Guarded, hstep]
      | some next =>
          rw [guarded_cons_of_step hstep] at hguard ⊢
          exact ⟨himp state label hinit hguard.1,
            ih (hkeep state label next hinit hguard.1 hstep) hguard.2⟩

theorem Guarded.invariant_of_visits
    (Inv : State → Prop)
    (hkeep : ∀ state label next, Inv state → guard state label →
      step state label = some next → Inv next)
    {start state : State} {labels : List Label}
    (hguard : Guarded step guard start labels)
    (hinit : Inv start) (hvisit : Visits step start labels state) :
    Inv state := by
  obtain ⟨before, ⟨after, rfl⟩, hrun⟩ := hvisit
  exact invariant_of_guarded Inv hkeep hinit (hguard.split hrun).1 hrun

theorem invariant_of_step
    (Inv : State → Prop)
    (hkeep : ∀ state label next, Inv state →
      step state label = some next → Inv next)
    {state finish : State} {labels : List Label}
    (hinit : Inv state) (hrun : exec step state labels = some finish) :
    Inv finish := by
  induction labels generalizing state with
  | nil =>
      simp only [exec_nil, Option.some.injEq] at hrun
      exact hrun ▸ hinit
  | cons label rest ih =>
      obtain ⟨next, hstep, hrest⟩ := exec_cons_eq_some.mp hrun
      exact ih (hkeep state label next hinit hstep) hrest

theorem visits_nil {start state : State} :
    Visits step start [] state ↔ state = start := by
  constructor
  · rintro ⟨before, hprefix, hrun⟩
    rw [List.prefix_nil.mp hprefix] at hrun
    simpa using hrun.symm
  · rintro rfl
    exact ⟨[], List.prefix_rfl, rfl⟩

theorem visits_cons_of_step
    {start next state : State} {label : Label} {rest : List Label}
    (hstep : step start label = some next) :
    Visits step start (label :: rest) state ↔
      state = start ∨ Visits step next rest state := by
  constructor
  · rintro ⟨before, hprefix, hrun⟩
    cases before with
    | nil => exact Or.inl (by simpa using hrun.symm)
    | cons head tail =>
        obtain ⟨rfl, htail⟩ := List.cons_prefix_cons.mp hprefix
        obtain ⟨other, hother, hrest⟩ := exec_cons_eq_some.mp hrun
        rw [hstep, Option.some.injEq] at hother
        subst other
        exact Or.inr ⟨tail, htail, hrest⟩
  · rintro (rfl | ⟨before, hprefix, hrun⟩)
    · exact ⟨[], List.nil_prefix, rfl⟩
    · exact ⟨label :: before, List.cons_prefix_cons.mpr ⟨rfl, hprefix⟩,
        exec_cons_eq_some.mpr ⟨next, hstep, hrun⟩⟩

theorem visits_cons_of_stuck
    {start state : State} {label : Label} {rest : List Label}
    (hstep : step start label = none) :
    Visits step start (label :: rest) state ↔ state = start := by
  constructor
  · rintro ⟨before, hprefix, hrun⟩
    cases before with
    | nil => simpa using hrun.symm
    | cons head tail =>
        obtain ⟨rfl, -⟩ := List.cons_prefix_cons.mp hprefix
        simp [exec, hstep] at hrun
  · rintro rfl
    exact ⟨[], List.nil_prefix, rfl⟩

/-- A run goes on from every state that it passes through. -/
theorem Visits.exists_rest
    {start state finish : State} {labels : List Label}
    (hvisit : Visits step start labels state)
    (hrun : exec step start labels = some finish) :
    ∃ rest, exec step state rest = some finish := by
  obtain ⟨before, ⟨rest, rfl⟩, hbefore⟩ := hvisit
  refine ⟨rest, ?_⟩
  induction before generalizing start with
  | nil =>
      simp only [exec_nil, Option.some.injEq] at hbefore
      exact hbefore ▸ hrun
  | cons label tail ih =>
      obtain ⟨next, hstep, htail⟩ := exec_cons_eq_some.mp hbefore
      obtain ⟨other, hother, hrest⟩ := exec_cons_eq_some.mp hrun
      rw [hstep, Option.some.injEq] at hother
      subst other
      exact ih htail hrest

/-- When a state with the property goes to a state with the property exactly
along guarded steps, the runs that have the property in every state they
pass through are exactly the guarded ones.  `Inv` is an invariant of all
steps that the characterization may use. -/
theorem forall_visits_iff_guarded
    (Inv Good : State → Prop)
    (hkeep : ∀ state label next, Inv state →
      step state label = some next → Inv next)
    (hgood : ∀ state label next, Inv state → Good state →
      step state label = some next → (Good next ↔ guard state label))
    {start : State} {labels : List Label}
    (hinv : Inv start) (hstart : Good start) :
    (∀ state, Visits step start labels state → Good state) ↔
      Guarded step guard start labels := by
  induction labels generalizing start with
  | nil => simp [visits_nil, Guarded, hstart]
  | cons label rest ih =>
      cases hstep : step start label with
      | none => simp [visits_cons_of_stuck hstep, Guarded, hstep, hstart]
      | some next =>
          have hnextInv := hkeep start label next hinv hstep
          have hnext := hgood start label next hinv hstart hstep
          rw [guarded_cons_of_step hstep]
          simp only [visits_cons_of_step hstep]
          constructor
          · intro hall
            have hnextGood : Good next :=
              hall next (Or.inr ⟨[], List.nil_prefix, rfl⟩)
            refine ⟨hnext.mp hnextGood, (ih hnextInv hnextGood).mp ?_⟩
            intro state hvisit
            exact hall state (Or.inr hvisit)
          · rintro ⟨hlabel, hrest⟩ state (rfl | hvisit)
            · exact hstart
            · exact (ih hnextInv (hnext.mpr hlabel)).mpr hrest state hvisit

/-- A run in which guarded steps keep what is good, and the first unguarded
one spoils it for good, is guarded when it ends well and not when it ends
spoilt. -/
theorem guarded_or_spoilt
    (Good Spoilt : State → Prop)
    (hkeep : ∀ state label next, Good state → guard state label →
      step state label = some next → Good next)
    (hspoil : ∀ state label next, Good state → ¬ guard state label →
      step state label = some next → Spoilt next)
    (hstay : ∀ state label next, Spoilt state →
      step state label = some next → Spoilt next)
    {start finish : State} {labels : List Label}
    (hstart : Good start) (hrun : exec step start labels = some finish) :
    (Guarded step guard start labels ∧ Good finish) ∨
      (¬ Guarded step guard start labels ∧ Spoilt finish) := by
  induction labels generalizing start with
  | nil =>
      simp only [exec_nil, Option.some.injEq] at hrun
      exact Or.inl ⟨trivial, hrun ▸ hstart⟩
  | cons label rest ih =>
      obtain ⟨next, hstep, hrest⟩ := exec_cons_eq_some.mp hrun
      rw [guarded_cons_of_step hstep]
      by_cases hlabel : guard start label
      · rcases ih (hkeep start label next hstart hlabel hstep) hrest with
          ⟨hguarded, hfinish⟩ | ⟨hnot, hfinish⟩
        · exact Or.inl ⟨⟨hlabel, hguarded⟩, hfinish⟩
        · exact Or.inr ⟨fun hboth => hnot hboth.2, hfinish⟩
      · have hnext := hspoil start label next hstart hlabel hstep
        exact Or.inr ⟨fun hboth => hlabel hboth.1,
          invariant_of_step Spoilt hstay hnext hrest⟩

/-- A run that starts in a set and passes through a state outside of it has
a first step that leaves the set. -/
theorem exists_leaving
    (Good : State → Prop)
    {start state finish : State} {labels : List Label}
    (hstart : Good start) (hvisit : Visits step start labels state)
    (hstate : ¬ Good state) (hrun : exec step start labels = some finish) :
    ∃ front label back middle next,
      exec step start front = some middle ∧ Good middle ∧
        step middle label = some next ∧ ¬ Good next ∧
        Visits step start labels next ∧
        exec step next back = some finish := by
  induction labels generalizing start with
  | nil =>
      rw [visits_nil.mp hvisit] at hstate
      exact absurd hstart hstate
  | cons label rest ih =>
      obtain ⟨next, hstep, hrest⟩ := exec_cons_eq_some.mp hrun
      by_cases hnext : Good next
      · have hlater : Visits step next rest state := by
          rcases (visits_cons_of_step hstep).mp hvisit with rfl | hlater
          · exact absurd hstart hstate
          · exact hlater
        obtain ⟨front, leaving, back, middle, after, hfront, hgood, hleaves,
          hbad, hafter, hback⟩ := ih hnext hlater hrest
        exact ⟨label :: front, leaving, back, middle, after,
          exec_cons_eq_some.mpr ⟨next, hstep, hfront⟩, hgood, hleaves, hbad,
          (visits_cons_of_step hstep).mpr (Or.inr hafter), hback⟩
      · exact ⟨[], label, rest, start, next, rfl, hstart, hstep, hnext,
          (visits_cons_of_step hstep).mpr
            (Or.inr ⟨[], List.nil_prefix, rfl⟩), hrest⟩

/-! ## Machines that are observed -/

section Observed

variable {Other Observation : Type*}

/-- What is seen after each label of a word. -/
def observations (move : State → Label → Observation × State) :
    State → List Label → List Observation
  | _, [] => []
  | state, label :: rest =>
      (move state label).1 :: observations move (move state label).2 rest

/-- Two machines whose states stay related look the same, as long as the
second one shows what the first one can show. -/
theorem observations_eq_of_lockstep
    {move : State → Label → Observation × State}
    {move' : Other → Label → Observation × Other}
    (Related : State → Other → Prop) (allowed : Label → Prop)
    (showable : Observation → Prop)
    (hmove : ∀ state other label, Related state other → allowed label →
      showable (move' other label).1 →
      (move state label).1 = (move' other label).1 ∧
        Related (move state label).2 (move' other label).2)
    {state : State} {other : Other} {labels : List Label}
    (hrelated : Related state other)
    (hallowed : ∀ label ∈ labels, allowed label)
    (hshowable : ∀ observation ∈ observations move' other labels,
      showable observation) :
    observations move state labels = observations move' other labels := by
  induction labels generalizing state other with
  | nil => rfl
  | cons label rest ih =>
      unfold observations at hshowable ⊢
      obtain ⟨hlabel, hrest⟩ := List.forall_mem_cons.mp hallowed
      obtain ⟨hshown, hlater⟩ := List.forall_mem_cons.mp hshowable
      obtain ⟨hsame, hnext⟩ := hmove state other label hrelated hlabel hshown
      rw [hsame, ih hnext hrest hlater]

end Observed

/-! ## Recorded histories -/

section Histories

variable {Event : Type*} {history : List Event} {event last : Event}

theorem sublist_of_last_notMem
    {events : List Event} (init : List Event)
    (hsub : (init ++ [last]).Sublist (history ++ events))
    (hlast : last ∉ events) :
    (init ++ [last]).Sublist history := by
  obtain ⟨front, back, heq, hfront, hback⟩ := List.sublist_append_iff.mp hsub
  cases back using List.reverseRecOn with
  | nil =>
      rw [List.append_nil] at heq
      rwa [heq]
  | append_singleton rest final =>
      rw [← List.append_assoc] at heq
      obtain ⟨-, rfl⟩ := List.append_singleton_inj.mp heq
      exact absurd (hback.subset (by simp)) hlast

/-- The last event of a subsequence is old, or it is the new one and the
others are old. -/
theorem sublist_concat
    (init : List Event)
    (hsub : (init ++ [last]).Sublist (history ++ [event])) :
    (init ++ [last]).Sublist history ∨
      (last = event ∧ init.Sublist history) := by
  by_cases hlast : last = event
  · subst hlast
    exact Or.inr ⟨rfl, List.append_sublist_append_right [last] |>.mp hsub⟩
  · exact Or.inl (sublist_of_last_notMem init hsub (by simpa using hlast))

/-- An event of a history is the new one, or it is old and the new one comes
after it. -/
theorem concat_eq_append_cons
    {before after : List Event}
    (hsplit : history ++ [last] = before ++ event :: after) :
    (last = event ∧ history = before) ∨
      ∃ rest, after = rest ++ [last] ∧ history = before ++ event :: rest := by
  cases after using List.reverseRecOn with
  | nil =>
      obtain ⟨hhistory, hlast⟩ := List.append_singleton_inj.mp hsplit
      exact Or.inl ⟨hlast, hhistory⟩
  | append_singleton rest final =>
      rw [← List.cons_append, ← List.append_assoc] at hsplit
      obtain ⟨hhistory, rfl⟩ := List.append_singleton_inj.mp hsplit
      exact Or.inr ⟨rest, rfl, hhistory⟩

end Histories

end SoulonWallet.LabelledRun
