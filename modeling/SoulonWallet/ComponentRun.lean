import SoulonWallet.LabelledRun

/-!
# Runs of machines made of components

The state of the machine has parts, and a label belongs to at most one of
them: it reads and writes that part alone.  What a part becomes, and what the
labels of a part let an observer see, then depends on these labels alone and
not on the labels of the other parts between them.
-/

namespace SoulonWallet.ComponentRun

open LabelledRun

variable {State Label Observation Index : Type*} {Part : Index → Type*}

/-- The state after a word of labels of a total machine. -/
def after (move : State → Label → Observation × State) :
    State → List Label → State
  | state, [] => state
  | state, label :: rest => after move (move state label).2 rest

/-- The labels of a word, each with what is seen after it. -/
def answers (move : State → Label → Observation × State)
    (state : State) (labels : List Label) : List (Label × Observation) :=
  labels.zip (observations move state labels)

/-- A label leaves the parts of other owners alone, and what it makes of its
own part and shows depends on that part only. -/
structure Separate (move : State → Label → Observation × State)
    (part : (index : Index) → State → Part index)
    (owner : Label → Option Index) : Prop where
  frame : ∀ state label index, owner label ≠ some index →
    part index (move state label).2 = part index state
  own : ∀ state other label index, owner label = some index →
    part index state = part index other →
    (move state label).1 = (move other label).1 ∧
      part index (move state label).2 = part index (move other label).2

variable {move : State → Label → Observation × State}
variable {part : (index : Index) → State → Part index}
variable {owner : Label → Option Index}

@[simp] theorem after_nil (state : State) :
    after move state [] = state := rfl

@[simp] theorem after_cons
    (state : State) (label : Label) (rest : List Label) :
    after move state (label :: rest) =
      after move (move state label).2 rest := rfl

@[simp] theorem answers_nil (state : State) :
    answers move state [] = [] := rfl

@[simp] theorem answers_cons
    (state : State) (label : Label) (rest : List Label) :
    answers move state (label :: rest) =
      (label, (move state label).1) ::
        answers move (move state label).2 rest := rfl

/-- Machines whose states stay related end in related states, and the first
one shows what the second one shows, up to `view`. -/
theorem after_related
    {Other Shown : Type*} {move' : Other → Label → Shown × Other}
    {view : Observation → Shown} {shown : Observation → Prop}
    (Related : State → Other → Prop)
    (hmove : ∀ state other label, Related state other →
      view (move state label).1 = (move' other label).1 ∧
        shown (move state label).1 ∧
        Related (move state label).2 (move' other label).2)
    {state : State} {other : Other} (hrelated : Related state other)
    (labels : List Label) :
    Related (after move state labels) (after move' other labels) ∧
      (observations move state labels).map view =
        observations move' other labels ∧
      ∀ observation ∈ observations move state labels, shown observation := by
  induction labels generalizing state other with
  | nil => exact ⟨hrelated, rfl, fun _ hmem => absurd hmem List.not_mem_nil⟩
  | cons label rest ih =>
      obtain ⟨hsame, hshown, hnext⟩ := hmove state other label hrelated
      obtain ⟨hafter, hviews, hrest⟩ := ih hnext
      refine ⟨hafter, ?_, List.forall_mem_cons.mpr ⟨hshown, hrest⟩⟩
      unfold observations
      rw [List.map_cons, hsame, hviews]

variable [DecidableEq Index]

/-- The labels of one part. -/
def ownLabels (owner : Label → Option Index) (index : Index)
    (labels : List Label) : List Label :=
  labels.filter fun label => owner label = some index

/-- The labels of one part with what is seen after them. -/
def ownAnswers (owner : Label → Option Index) (index : Index)
    (seen : List (Label × Observation)) : List (Label × Observation) :=
  seen.filter fun answer => owner answer.1 = some index

/-- A part goes through its own labels as if there were no others. -/
theorem Separate.alone
    (hseparate : Separate move part owner) (index : Index)
    {state other : State} (hpart : part index state = part index other)
    (labels : List Label) :
    part index (after move state labels) =
        part index (after move other (ownLabels owner index labels)) ∧
      ownAnswers owner index (answers move state labels) =
        answers move other (ownLabels owner index labels) := by
  induction labels generalizing state other with
  | nil => exact ⟨hpart, rfl⟩
  | cons label rest ih =>
      by_cases howner : owner label = some index
      · obtain ⟨hseen, hnext⟩ :=
          hseparate.own state other label index howner hpart
        obtain ⟨hafter, hanswers⟩ := ih hnext
        have hlabels : ownLabels owner index (label :: rest) =
            label :: ownLabels owner index rest := by
          simp [ownLabels, howner]
        rw [hlabels]
        refine ⟨hafter, ?_⟩
        rw [answers_cons, answers_cons, ← hanswers, hseen]
        simp [ownAnswers, howner]
      · have hnext : part index (move state label).2 = part index other :=
          (hseparate.frame state label index howner).trans hpart
        obtain ⟨hafter, hanswers⟩ := ih hnext
        have hlabels : ownLabels owner index (label :: rest) =
            ownLabels owner index rest := by
          simp [ownLabels, howner]
        rw [hlabels]
        refine ⟨hafter, ?_⟩
        rw [answers_cons, ← hanswers]
        simp [ownAnswers, howner]

/-- Runs that agree on a part at their start and on its labels agree on the
part at their end, and on what its labels show. -/
theorem Separate.agree
    (hseparate : Separate move part owner) (index : Index)
    {state other : State} (hpart : part index state = part index other)
    {labels labels' : List Label}
    (hlabels : ownLabels owner index labels =
      ownLabels owner index labels') :
    part index (after move state labels) =
        part index (after move other labels') ∧
      ownAnswers owner index (answers move state labels) =
        ownAnswers owner index (answers move other labels') := by
  obtain ⟨hafter, hanswers⟩ := hseparate.alone index hpart labels
  obtain ⟨hafter', hanswers'⟩ := hseparate.alone index rfl labels'
  rw [hafter, hanswers, hafter', hanswers', hlabels]
  exact ⟨rfl, rfl⟩

end SoulonWallet.ComponentRun
