import SoulonWallet.LabelledRun

/-!
# Migrations run by many processes at once

A plan is a list of migrations with distinct versions.  Each process connects,
makes sure that the table of versions is there, and then goes through the
plan: it asks whether a version is recorded, applies the migration if not, and
records the version.  Every statement commits on its own, nothing is locked,
and a version can be recorded only once.  The answer to a statement can be
lost, the statement can be refused, and a process can be restarted at any
time.

The versions that are recorded are always those of the first migrations of the
plan, in its order, and each of them has been applied.  A process that is left
alone goes through.
-/

namespace SoulonWallet.MigrationRun

open LabelledRun

variable {Db Work : Type*}

structure Migration (Db : Type*) where
  version : ℤ
  apply : Db → Except String Db

/-- The contents of a database and the versions recorded in it, in the order
in which they were, once the table for them is there. -/
structure Ledger (Db : Type*) where
  contents : Db
  recorded : Option (List ℤ)

inductive Failure where
  | connection (reason : String)
  | statement (reason : String)
  | noTable
  | duplicate (version : ℤ)
  deriving DecidableEq

/-- Where a process stands: `idle` before it has begun, `returned` for good.
-/
inductive Stage (Db : Type*) where
  | idle
  | connecting
  | preparing
  | checking (migration : Migration Db) (rest : List (Migration Db))
  | applying (migration : Migration Db) (rest : List (Migration Db))
  | recording (migration : Migration Db) (rest : List (Migration Db))
  | returned (failure : Option Failure)

/-- What a process learns of a statement. -/
inductive Reply where
  | answered
  | lost (reason : String)
  | refused (reason : String)

structure System (Db : Type*) where
  ledger : Ledger Db
  stage : ℕ → Stage Db

inductive Action (Work : Type*) where
  | start (id : ℕ)
  | statement (id : ℕ) (reply : Reply)
  | restart (id : ℕ)
  | work (id : ℕ) (change : Work)

def loop : List (Migration Db) → Stage Db
  | [] => .returned none
  | migration :: rest => .checking migration rest

/-- The statement that a process is about to send, and how it goes on. -/
def Stage.next (plan : List (Migration Db)) (ledger : Ledger Db) :
    Stage Db → Option (Except Failure (Ledger Db × Stage Db))
  | .idle => none
  | .connecting => some (.ok (ledger, .preparing))
  | .preparing =>
      some (.ok ({ ledger with recorded := some (ledger.recorded.getD []) },
        loop plan))
  | .checking migration rest =>
      match ledger.recorded with
      | none => some (.error .noTable)
      | some versions =>
          if migration.version ∈ versions then some (.ok (ledger, loop rest))
          else some (.ok (ledger, .applying migration rest))
  | .applying migration rest =>
      match migration.apply ledger.contents with
      | .error reason => some (.error (.statement reason))
      | .ok contents =>
          some (.ok ({ ledger with contents := contents },
            .recording migration rest))
  | .recording migration rest =>
      match ledger.recorded with
      | none => some (.error .noTable)
      | some versions =>
          if migration.version ∈ versions then
            some (.error (.duplicate migration.version))
          else
            some (.ok ({ ledger with
              recorded := some (versions ++ [migration.version]) }, loop rest))
  | .returned _ => none

namespace System

def moveTo (system : System Db) (id : ℕ) (stage : Stage Db) : System Db :=
  { system with stage := Function.update system.stage id stage }

/-- A statement that is refused changes nothing, one whose answer is lost does
what it does; both end the process with an error. -/
def afterStatement (plan : List (Migration Db)) (system : System Db) (id : ℕ)
    (reply : Reply) : Option (System Db) :=
  match (system.stage id).next plan system.ledger with
  | none => none
  | some outcome =>
      match reply, outcome with
      | .answered, .ok (ledger, stage) =>
          some ({ system with ledger := ledger }.moveTo id stage)
      | .answered, .error failure =>
          some (system.moveTo id (.returned (some failure)))
      | .lost reason, .ok (ledger, _) =>
          some ({ system with ledger := ledger }.moveTo id
            (.returned (some (.connection reason))))
      | .lost reason, .error _ | .refused reason, _ =>
          some (system.moveTo id (.returned (some (.connection reason))))

/-- `run` is what a process that is done does to the database. -/
def step (plan : List (Migration Db)) (run : Work → Db → Db)
    (system : System Db) : Action Work → Option (System Db)
  | .start id =>
      match system.stage id with
      | .idle => some (system.moveTo id .connecting)
      | _ => none
  | .statement id reply => system.afterStatement plan id reply
  | .restart id => some (system.moveTo id .idle)
  | .work id change =>
      match system.stage id with
      | .returned none =>
          some { system with ledger := { system.ledger with
            contents := run change system.ledger.contents } }
      | _ => none

def initial (contents : Db) : System Db where
  ledger := ⟨contents, none⟩
  stage := fun _ => .idle

@[simp] theorem moveTo_ledger
    (system : System Db) (id : ℕ) (stage : Stage Db) :
    (system.moveTo id stage).ledger = system.ledger := rfl

@[simp] theorem moveTo_stage_self
    (system : System Db) (id : ℕ) (stage : Stage Db) :
    (system.moveTo id stage).stage id = stage := by
  simp [moveTo]

theorem moveTo_stage_of_ne
    (system : System Db) {id other : ℕ} (stage : Stage Db)
    (hne : other ≠ id) :
    (system.moveTo id stage).stage other = system.stage other := by
  simp [moveTo, hne]

end System

/-! ## Plans -/

/-- Migrations that can be applied in their order, and what each of them
achieves for good. -/
structure Plan (Db Work : Type*) where
  migrations : List (Migration Db)
  run : Work → Db → Db
  Fits : Db → Prop
  Done : Migration Db → Db → Prop
  distinct : (migrations.map Migration.version).Nodup
  applies : ∀ past migration rest contents,
    migrations = past ++ migration :: rest → Fits contents →
    (∀ earlier ∈ past, Done earlier contents) →
    ∃ next, migration.apply contents = .ok next ∧ Fits next ∧
      Done migration next ∧ ∀ other ∈ migrations, Done other contents →
        Done other next
  works : ∀ change contents, Fits contents →
    Fits (run change contents) ∧ ∀ other ∈ migrations, Done other contents →
      Done other (run change contents)
  settled : ∀ migration ∈ migrations, ∀ contents, Done migration contents →
    migration.apply contents = .ok contents

/-- The versions that are recorded are those of the first migrations, which
have been applied. -/
structure Plan.InOrder (plan : Plan Db Work) (ledger : Ledger Db) : Prop where
  fits : plan.Fits ledger.contents
  recorded : ∀ versions, ledger.recorded = some versions →
    ∃ past rest, plan.migrations = past ++ rest ∧
      versions = past.map Migration.version ∧
      ∀ migration ∈ past, plan.Done migration ledger.contents

/-- The process has the migrations of `rest` still before it. -/
def Plan.Before (plan : Plan Db Work) (ledger : Ledger Db)
    (rest : List (Migration Db)) : Prop :=
  ∃ past versions, plan.migrations = past ++ rest ∧
    ledger.recorded = some versions ∧
    ∀ migration ∈ past, migration.version ∈ versions

/-- What a process knows of the database where it stands. -/
def Plan.Knows (plan : Plan Db Work) (ledger : Ledger Db) : Stage Db → Prop
  | .idle | .connecting | .preparing => True
  | .checking migration rest | .applying migration rest =>
      plan.Before ledger (migration :: rest)
  | .recording migration rest =>
      plan.Before ledger (migration :: rest) ∧
        plan.Done migration ledger.contents
  | .returned none => plan.Before ledger []
  | .returned (some (.connection _)) => True
  | .returned (some (.duplicate version)) =>
      ∃ versions, ledger.recorded = some versions ∧ version ∈ versions
  | .returned (some _) => False

structure Plan.Sound (plan : Plan Db Work) (system : System Db) : Prop where
  inOrder : plan.InOrder system.ledger
  knows : ∀ id, plan.Knows system.ledger (system.stage id)

variable {plan : Plan Db Work} {ledger next : Ledger Db}

/-- Nothing recorded or applied is lost. -/
structure Plan.Grows (plan : Plan Db Work) (ledger next : Ledger Db) :
    Prop where
  recorded : ∀ versions, ledger.recorded = some versions →
    ∃ more, next.recorded = some (versions ++ more)
  done : ∀ migration ∈ plan.migrations,
    plan.Done migration ledger.contents → plan.Done migration next.contents

theorem Plan.Grows.refl (ledger : Ledger Db) : plan.Grows ledger ledger where
  recorded := fun versions hversions => ⟨[], by simpa using hversions⟩
  done := fun _ _ hdone => hdone

theorem Plan.Before.grows
    {rest : List (Migration Db)} (hbefore : plan.Before ledger rest)
    (hgrows : plan.Grows ledger next) :
    plan.Before next rest := by
  obtain ⟨past, versions, hplan, hversions, hpast⟩ := hbefore
  obtain ⟨more, hmore⟩ := hgrows.recorded versions hversions
  refine ⟨past, versions ++ more, hplan, hmore, ?_⟩
  intro migration hmigration
  exact List.mem_append_left more (hpast migration hmigration)

theorem Plan.Before.mem
    {migration : Migration Db} {rest : List (Migration Db)}
    (hbefore : plan.Before ledger (migration :: rest)) :
    migration ∈ plan.migrations := by
  obtain ⟨past, -, hplan, -⟩ := hbefore
  rw [hplan]
  simp

/-- A process goes on knowing what it knows while others work. -/
theorem Plan.Knows.grows
    {stage : Stage Db} (hknows : plan.Knows ledger stage)
    (hgrows : plan.Grows ledger next) :
    plan.Knows next stage := by
  cases stage with
  | idle => trivial
  | connecting => trivial
  | preparing => trivial
  | checking migration rest => exact Plan.Before.grows hknows hgrows
  | applying migration rest => exact Plan.Before.grows hknows hgrows
  | recording migration rest =>
      exact ⟨hknows.1.grows hgrows,
        hgrows.done migration hknows.1.mem hknows.2⟩
  | returned failure =>
      cases failure with
      | none => exact Plan.Before.grows hknows hgrows
      | some failure =>
          cases failure with
          | connection reason => trivial
          | statement reason => exact hknows
          | noTable => exact hknows
          | duplicate version =>
              obtain ⟨versions, hversions, hmem⟩ := hknows
              obtain ⟨more, hmore⟩ := hgrows.recorded versions hversions
              exact ⟨_, hmore, List.mem_append_left more hmem⟩

theorem Plan.Sound.moveTo
    {system : System Db} (hsound : plan.Sound system) {id : ℕ}
    {stage : Stage Db} (hgrows : plan.Grows system.ledger next)
    (hinOrder : plan.InOrder next) (hknows : plan.Knows next stage) :
    plan.Sound ({ system with ledger := next }.moveTo id stage) := by
  refine ⟨hinOrder, ?_⟩
  intro other
  by_cases hother : other = id
  · subst hother
    rw [System.moveTo_stage_self]
    exact hknows
  · rw [System.moveTo_stage_of_ne _ _ hother]
    exact (hsound.knows other).grows hgrows

/-! ## One statement -/

theorem Plan.Before.loop
    {rest : List (Migration Db)} (hbefore : plan.Before ledger rest) :
    plan.Knows ledger (loop rest) := by
  cases rest with
  | nil => exact hbefore
  | cons migration rest => exact hbefore

theorem Plan.Before.tail
    {migration : Migration Db} {rest : List (Migration Db)}
    {versions : List ℤ} (hbefore : plan.Before ledger (migration :: rest))
    (hversions : ledger.recorded = some versions)
    (hmem : migration.version ∈ versions) :
    plan.Before ledger rest := by
  obtain ⟨past, _, hplan, hrecorded, hpast⟩ := hbefore
  rw [hversions, Option.some.injEq] at hrecorded
  subst hrecorded
  refine ⟨past ++ [migration], versions, by simp [hplan], hversions, ?_⟩
  intro earlier hearlier
  rcases List.mem_append.mp hearlier with hearlier | hearlier
  · exact hpast earlier hearlier
  · rw [List.mem_singleton.mp hearlier]
    exact hmem

/-- A process whose next migration is not recorded stands where the record
ends. -/
theorem Plan.Before.exact
    {migration : Migration Db} {rest : List (Migration Db)}
    {versions : List ℤ} (hbefore : plan.Before ledger (migration :: rest))
    (hinOrder : plan.InOrder ledger)
    (hversions : ledger.recorded = some versions)
    (hnot : migration.version ∉ versions) :
    ∃ past, plan.migrations = past ++ migration :: rest ∧
      versions = past.map Migration.version ∧
      ∀ earlier ∈ past, plan.Done earlier ledger.contents := by
  obtain ⟨past, _, hplan, hrecorded, hpast⟩ := hbefore
  rw [hversions, Option.some.injEq] at hrecorded
  subst hrecorded
  obtain ⟨front, back, hsplit, hfront, hdone⟩ :=
    hinOrder.recorded versions hversions
  have hlists := hsplit.symm.trans hplan
  have hdistinct := plan.distinct
  rcases List.append_eq_append_iff.mp hlists with
    ⟨more, hmore, -⟩ | ⟨more, hmore, htail⟩
  · cases more with
    | nil =>
        rw [List.append_nil] at hmore
        subst hmore
        exact ⟨past, hplan, hfront, hdone⟩
    | cons extra others =>
        have hextra : extra.version ∈ versions := by
          apply hpast
          rw [hmore]
          simp
        rw [hfront] at hextra
        rw [hplan, hmore] at hdistinct
        simp only [List.append_assoc, List.map_append,
          List.nodup_append] at hdistinct
        exact absurd rfl (hdistinct.2.2 _ hextra extra.version (by simp))
  · cases more with
    | nil =>
        rw [List.append_nil] at hmore
        subst hmore
        exact ⟨front, hplan, hfront, hdone⟩
    | cons extra others =>
        obtain ⟨rfl, -⟩ := List.cons_eq_cons.mp htail
        refine absurd ?_ hnot
        rw [hfront, hmore]
        simp

theorem Plan.InOrder.prepared
    (hinOrder : plan.InOrder ledger) :
    let next : Ledger Db :=
      { ledger with recorded := some (ledger.recorded.getD []) }
    plan.Grows ledger next ∧ plan.InOrder next ∧
      plan.Knows next (loop plan.migrations) := by
  intro next
  have hbefore : plan.Before next plan.migrations :=
    ⟨[], ledger.recorded.getD [], rfl, rfl, by simp⟩
  refine ⟨⟨?_, fun _ _ hdone => hdone⟩, ⟨hinOrder.fits, ?_⟩, hbefore.loop⟩
  · intro versions hversions
    exact ⟨[], by simp [next, hversions]⟩
  · intro versions hversions
    rw [Option.some.injEq] at hversions
    subst hversions
    cases hrecorded : ledger.recorded with
    | none => exact ⟨[], plan.migrations, rfl, by simp, by simp⟩
    | some versions => exact hinOrder.recorded versions hrecorded

/-- The migration that a process applies is the next one of the record, or it
has been applied already. -/
theorem Plan.InOrder.applied
    {migration : Migration Db} {rest : List (Migration Db)}
    (hinOrder : plan.InOrder ledger)
    (hbefore : plan.Before ledger (migration :: rest)) :
    ∃ contents, migration.apply ledger.contents = .ok contents ∧
      plan.Grows ledger { ledger with contents := contents } ∧
      plan.InOrder { ledger with contents := contents } ∧
      plan.Done migration contents := by
  obtain ⟨_, versions, _, hversions, _⟩ := id hbefore
  by_cases hmem : migration.version ∈ versions
  · -- Another process has recorded it in the meantime.
    obtain ⟨front, back, hplan, hfront, hdone⟩ :=
      hinOrder.recorded versions hversions
    rw [hfront] at hmem
    obtain ⟨other, hother, hversion⟩ := List.mem_map.mp hmem
    have hsame : other = migration :=
      List.inj_on_of_nodup_map plan.distinct (by simp [hplan, hother])
        hbefore.mem hversion
    subst hsame
    have happly := plan.settled other hbefore.mem _ (hdone other hother)
    exact ⟨_, happly, Plan.Grows.refl ledger, hinOrder, hdone other hother⟩
  · obtain ⟨past, hplan, hpast, hdone⟩ :=
      hbefore.exact hinOrder hversions hmem
    obtain ⟨next, happly, hfits, hnext, hkeeps⟩ :=
      plan.applies past migration rest ledger.contents hplan hinOrder.fits
        hdone
    refine ⟨next, happly, ⟨?_, hkeeps⟩, ⟨hfits, ?_⟩, hnext⟩
    · intro versions hversions
      exact ⟨[], by simpa using hversions⟩
    · intro others hothers
      rw [hversions, Option.some.injEq] at hothers
      subst hothers
      refine ⟨past, migration :: rest, hplan, hpast, ?_⟩
      intro earlier hearlier
      exact hkeeps earlier (by simp [hplan, hearlier]) (hdone earlier hearlier)

theorem Plan.InOrder.record
    {migration : Migration Db} {rest : List (Migration Db)}
    {versions : List ℤ} (hinOrder : plan.InOrder ledger)
    (hbefore : plan.Before ledger (migration :: rest))
    (hdone : plan.Done migration ledger.contents)
    (hversions : ledger.recorded = some versions)
    (hnot : migration.version ∉ versions) :
    let next : Ledger Db :=
      { ledger with recorded := some (versions ++ [migration.version]) }
    plan.Grows ledger next ∧ plan.InOrder next ∧
      plan.Knows next (loop rest) := by
  intro next
  obtain ⟨past, hplan, hpast, hearlier⟩ :=
    hbefore.exact hinOrder hversions hnot
  have hgrows : plan.Grows ledger next := by
    refine ⟨?_, fun _ _ hkept => hkept⟩
    intro others hothers
    rw [hversions, Option.some.injEq] at hothers
    subst hothers
    exact ⟨[migration.version], rfl⟩
  refine ⟨hgrows, ⟨hinOrder.fits, ?_⟩, ?_⟩
  · intro others hothers
    rw [Option.some.injEq] at hothers
    subst hothers
    refine ⟨past ++ [migration], rest, by simp [hplan], by simp [hpast], ?_⟩
    intro earlier hmem
    rcases List.mem_append.mp hmem with hmem | hmem
    · exact hearlier earlier hmem
    · rw [List.mem_singleton.mp hmem]
      exact hdone
  · have hnext : plan.Before next (migration :: rest) := hbefore.grows hgrows
    exact (hnext.tail rfl (by simp)).loop

/-- What a statement does for a process that knows where it stands: the only
error of its own is that another process was first to record the version. -/
theorem Plan.InOrder.statement
    {stage : Stage Db} {outcome : Except Failure (Ledger Db × Stage Db)}
    (hinOrder : plan.InOrder ledger) (hknows : plan.Knows ledger stage)
    (hnext : stage.next plan.migrations ledger = some outcome) :
    (∃ after stage', outcome = .ok (after, stage') ∧
      plan.Grows ledger after ∧ plan.InOrder after ∧
      plan.Knows after stage') ∨
    (∃ failure, outcome = .error failure ∧
      plan.Knows ledger (.returned (some failure))) := by
  cases stage with
  | idle => cases hnext
  | returned failure => cases hnext
  | connecting =>
      rw [← Option.some.inj hnext]
      exact Or.inl ⟨_, _, rfl, Plan.Grows.refl ledger, hinOrder, trivial⟩
  | preparing =>
      rw [← Option.some.inj hnext]
      exact Or.inl ⟨_, _, rfl, hinOrder.prepared⟩
  | checking migration rest =>
      obtain ⟨past, versions, hplan, hversions, hpast⟩ := id hknows
      simp only [Stage.next, hversions] at hnext
      split_ifs at hnext with hmem
      · rw [← Option.some.inj hnext]
        exact Or.inl ⟨_, _, rfl, Plan.Grows.refl ledger, hinOrder,
          (Plan.Before.tail hknows hversions hmem).loop⟩
      · rw [← Option.some.inj hnext]
        exact Or.inl ⟨_, _, rfl, Plan.Grows.refl ledger, hinOrder, hknows⟩
  | applying migration rest =>
      obtain ⟨contents, happly, hgrows, hafter, hdone⟩ :=
        hinOrder.applied hknows
      simp only [Stage.next, happly] at hnext
      rw [← Option.some.inj hnext]
      exact Or.inl ⟨_, _, rfl, hgrows, hafter,
        Plan.Before.grows hknows hgrows, hdone⟩
  | recording migration rest =>
      obtain ⟨past, versions, hplan, hversions, hpast⟩ := id hknows.1
      simp only [Stage.next, hversions] at hnext
      split_ifs at hnext with hmem
      · rw [← Option.some.inj hnext]
        exact Or.inr ⟨_, rfl, versions, hversions, hmem⟩
      · rw [← Option.some.inj hnext]
        exact Or.inl ⟨_, _, rfl,
          hinOrder.record hknows.1 hknows.2 hversions hmem⟩

theorem Plan.Knows.contents_of_next
    {stage stage' : Stage Db} (hknows : plan.Knows ledger stage)
    (hnext : stage.next plan.migrations ledger =
      some (.ok (next, stage'))) :
    next.contents = ledger.contents ∨
      ∃ migration ∈ plan.migrations,
        migration.apply ledger.contents = .ok next.contents := by
  cases stage with
  | idle => cases hnext
  | returned failure => cases hnext
  | connecting =>
      cases hnext
      exact Or.inl rfl
  | preparing =>
      simp only [Stage.next, Option.some.injEq, Except.ok.injEq,
        Prod.mk.injEq] at hnext
      rw [← hnext.1]
      exact Or.inl rfl
  | checking migration rest =>
      simp only [Stage.next] at hnext
      split at hnext
      · cases hnext
      · split_ifs at hnext <;> (cases hnext; exact Or.inl rfl)
  | applying migration rest =>
      simp only [Stage.next] at hnext
      split at hnext
      · cases hnext
      · next contents happly =>
          cases hnext
          exact Or.inr ⟨migration, Plan.Before.mem hknows, happly⟩
  | recording migration rest =>
      simp only [Stage.next] at hnext
      split at hnext
      · cases hnext
      · split_ifs at hnext
        · cases hnext
        · simp only [Option.some.injEq, Except.ok.injEq,
            Prod.mk.injEq] at hnext
          rw [← hnext.1]
          exact Or.inl rfl

theorem Plan.Sound.afterStatement
    {system after : System Db} (hsound : plan.Sound system) {id : ℕ}
    {reply : Reply}
    (hstep : system.afterStatement plan.migrations id reply = some after) :
    plan.Sound after := by
  unfold System.afterStatement at hstep
  cases hnext : (system.stage id).next plan.migrations system.ledger with
  | none => simp [hnext] at hstep
  | some outcome =>
      have hstay : ∀ failure, plan.Knows system.ledger
          (.returned (some failure)) →
          plan.Sound (system.moveTo id (.returned (some failure))) := by
        intro failure hknows
        exact hsound.moveTo (Plan.Grows.refl system.ledger) hsound.inOrder
          hknows
      rw [hnext] at hstep
      rcases hsound.inOrder.statement (hsound.knows id) hnext with
        ⟨ledger, stage, rfl, hgrows, hinOrder, hknows⟩ |
        ⟨failure, rfl, hknows⟩
      · cases reply with
        | answered =>
            rw [← Option.some.inj hstep]
            exact hsound.moveTo hgrows hinOrder hknows
        | lost reason =>
            rw [← Option.some.inj hstep]
            exact hsound.moveTo hgrows hinOrder trivial
        | refused reason =>
            rw [← Option.some.inj hstep]
            exact hstay _ trivial
      · cases reply with
        | answered =>
            rw [← Option.some.inj hstep]
            exact hstay failure hknows
        | lost reason =>
            rw [← Option.some.inj hstep]
            exact hstay _ trivial
        | refused reason =>
            rw [← Option.some.inj hstep]
            exact hstay _ trivial

theorem Plan.Sound.work
    {system : System Db} (hsound : plan.Sound system) (change : Work) :
    plan.Sound { system with ledger := { system.ledger with
      contents := plan.run change system.ledger.contents } } := by
  obtain ⟨hfits, hkeeps⟩ := plan.works change _ hsound.inOrder.fits
  have hgrows : plan.Grows system.ledger { system.ledger with
      contents := plan.run change system.ledger.contents } := by
    refine ⟨?_, hkeeps⟩
    intro versions hversions
    exact ⟨[], by simpa using hversions⟩
  refine ⟨⟨hfits, ?_⟩, fun id => (hsound.knows id).grows hgrows⟩
  intro versions hversions
  obtain ⟨past, rest, hplan, hpast, hdone⟩ :=
    hsound.inOrder.recorded versions hversions
  refine ⟨past, rest, hplan, hpast, ?_⟩
  intro migration hmem
  exact hkeeps migration (by simp [hplan, hmem]) (hdone migration hmem)

theorem Plan.Sound.step
    {system after : System Db} (hsound : plan.Sound system)
    {action : Action Work}
    (hstep : system.step plan.migrations plan.run action = some after) :
    plan.Sound after := by
  cases action with
  | start id =>
      simp only [System.step] at hstep
      split at hstep
      · rw [← Option.some.inj hstep]
        exact hsound.moveTo (Plan.Grows.refl _) hsound.inOrder trivial
      · cases hstep
  | statement id reply => exact hsound.afterStatement hstep
  | restart id =>
      rw [← Option.some.inj hstep]
      exact hsound.moveTo (Plan.Grows.refl _) hsound.inOrder trivial
  | work id change =>
      simp only [System.step] at hstep
      split at hstep
      · rw [← Option.some.inj hstep]
        exact hsound.work change
      · cases hstep

/-- The contents change by a migration of the plan, or by the work of a process
that is done. -/
theorem Plan.Sound.contents_of_step
    {system after : System Db} (hsound : plan.Sound system)
    {action : Action Work}
    (hstep : system.step plan.migrations plan.run action = some after) :
    ((∀ id change, action ≠ .work id change) ∧
      (after.ledger.contents = system.ledger.contents ∨
        ∃ migration ∈ plan.migrations,
          migration.apply system.ledger.contents =
            .ok after.ledger.contents)) ∨
      ∃ id change, action = .work id change ∧
        system.stage id = .returned none ∧
        after.ledger.contents = plan.run change system.ledger.contents := by
  cases action with
  | start id =>
      simp only [System.step] at hstep
      split at hstep
      · rw [← Option.some.inj hstep]
        exact Or.inl ⟨fun _ _ => nofun, Or.inl rfl⟩
      · cases hstep
  | restart id =>
      rw [← Option.some.inj hstep]
      exact Or.inl ⟨fun _ _ => nofun, Or.inl rfl⟩
  | work id change =>
      simp only [System.step] at hstep
      split at hstep
      · next hstage =>
          rw [← Option.some.inj hstep]
          exact Or.inr ⟨id, change, rfl, hstage, rfl⟩
      · cases hstep
  | statement id reply =>
      refine Or.inl ⟨fun _ _ => nofun, ?_⟩
      simp only [System.step, System.afterStatement] at hstep
      cases hnext :
          (system.stage id).next plan.migrations system.ledger with
      | none => simp [hnext] at hstep
      | some outcome =>
          rw [hnext] at hstep
          cases outcome with
          | error failure =>
              cases reply <;>
                (rw [← Option.some.inj hstep]; exact Or.inl rfl)
          | ok moved =>
              have hmoved := (hsound.knows id).contents_of_next hnext
              cases reply with
              | answered =>
                  rw [← Option.some.inj hstep]
                  exact hmoved
              | lost reason =>
                  rw [← Option.some.inj hstep]
                  exact hmoved
              | refused reason =>
                  rw [← Option.some.inj hstep]
                  exact Or.inl rfl

theorem Plan.initial_sound {contents : Db} (hfits : plan.Fits contents) :
    plan.Sound (System.initial contents) where
  inOrder := ⟨hfits, fun _ hversions => by cases hversions⟩
  knows := fun _ => trivial

/-- Every run from a database without a record of versions is sound. -/
theorem Plan.sound_of_exec
    {contents : Db} (hfits : plan.Fits contents)
    {actions : List (Action Work)} {system : System Db}
    (hexec : exec (System.step plan.migrations plan.run)
      (System.initial contents) actions = some system) :
    plan.Sound system :=
  invariant_of_step plan.Sound (fun _ _ _ hsound => hsound.step)
    (plan.initial_sound hfits) hexec

/-- Once every version is recorded, every migration has been applied. -/
theorem Plan.InOrder.all_recorded
    (hinOrder : plan.InOrder ledger) (hall : plan.Before ledger []) :
    ledger.recorded = some (plan.migrations.map Migration.version) ∧
      ∀ migration ∈ plan.migrations,
        plan.Done migration ledger.contents := by
  obtain ⟨past, versions, hplan, hversions, hpast⟩ := hall
  obtain ⟨front, back, hsplit, hfront, hdone⟩ :=
    hinOrder.recorded versions hversions
  rw [List.append_nil] at hplan
  have hback : back = [] := by
    apply List.eq_nil_iff_forall_not_mem.mpr
    intro migration hmem
    have hrecorded := hpast migration (by simp [← hplan, hsplit, hmem])
    have hdistinct := plan.distinct
    rw [hsplit, List.map_append, List.nodup_append] at hdistinct
    rw [hfront] at hrecorded
    exact hdistinct.2.2 _ hrecorded _ (List.mem_map_of_mem hmem) rfl
  rw [hback, List.append_nil] at hsplit
  rw [hsplit, hversions, hfront]
  exact ⟨rfl, hdone⟩

/-! ## A process that is left alone -/

/-- The process has gone through, and nobody else has moved. -/
structure System.Completed (id : ℕ) (before after : System Db) : Prop where
  returned : after.stage id = .returned none
  others : ∀ other, other ≠ id → after.stage other = before.stage other

theorem System.Completed.after_move
    {id : ℕ} {system after : System Db} {ledger : Ledger Db}
    {stage : Stage Db}
    (hafter : System.Completed id
      ({ system with ledger := ledger }.moveTo id stage) after) :
    System.Completed id system after where
  returned := hafter.returned
  others := by
    intro other hother
    rw [hafter.others other hother, System.moveTo_stage_of_ne _ _ hother]

theorem Plan.step_of_next
    (plan : Plan Db Work) {system : System Db} {id : ℕ}
    {stage after : Stage Db} (hstage : system.stage id = stage)
    (hnext : stage.next plan.migrations system.ledger =
      some (.ok (next, after))) :
    system.step plan.migrations plan.run (.statement id .answered) =
      some ({ system with ledger := next }.moveTo id after) := by
  simp [System.step, System.afterStatement, hstage, hnext]

theorem Plan.not_all_recorded
    {migration : Migration Db} {rest : List (Migration Db)}
    {versions : List ℤ} (hbefore : plan.Before ledger (migration :: rest))
    (hversions : ledger.recorded = some versions)
    (hnot : migration.version ∉ versions) :
    ¬ plan.Before ledger [] := by
  rintro ⟨past, others, hplan, hothers, hpast⟩
  rw [hversions, Option.some.injEq] at hothers
  subst hothers
  rw [List.append_nil] at hplan
  exact hnot (hpast migration (hplan ▸ hbefore.mem))

/-- Alone, the loop ends without an error, and changes nothing when every
version is recorded already. -/
theorem Plan.Sound.loop_completes
    (rest : List (Migration Db)) {system : System Db} {id : ℕ}
    (hsound : plan.Sound system) (hstage : system.stage id = loop rest) :
    ∃ turns finish, turns ≤ 3 * rest.length ∧
      exec (System.step plan.migrations plan.run) system
        (List.replicate turns (.statement id .answered)) = some finish ∧
      System.Completed id system finish ∧
      (plan.Before system.ledger [] → finish.ledger = system.ledger) := by
  induction rest generalizing system with
  | nil =>
      exact ⟨0, system, Nat.zero_le _, rfl, ⟨hstage, fun _ _ => rfl⟩,
        fun _ => rfl⟩
  | cons migration rest ih =>
      have hbefore : plan.Before system.ledger (migration :: rest) := by
        have hknows := hsound.knows id
        rw [hstage] at hknows
        exact hknows
      have hrecord := hbefore
      obtain ⟨-, versions, -, hversions, -⟩ := hrecord
      by_cases hmem : migration.version ∈ versions
      · have hnext : (loop (migration :: rest)).next plan.migrations
            system.ledger = some (.ok (system.ledger, loop rest)) := by
          simp [loop, Stage.next, hversions, hmem]
        have hcheck := plan.step_of_next hstage hnext
        obtain ⟨turns, finish, hturns, hexec, hdone, hsame⟩ :=
          ih (hsound.step hcheck) (System.moveTo_stage_self _ _ _)
        refine ⟨turns + 1, finish, ?_, ?_, hdone.after_move, hsame⟩
        · rw [List.length_cons]
          omega
        · rw [List.replicate_succ]
          exact exec_cons_eq_some.mpr ⟨_, hcheck, hexec⟩
      · obtain ⟨contents, happly, -, -, -⟩ := hsound.inOrder.applied hbefore
        have hcheckNext : (loop (migration :: rest)).next plan.migrations
            system.ledger =
              some (.ok (system.ledger, .applying migration rest)) := by
          simp [loop, Stage.next, hversions, hmem]
        have happlyNext : (Stage.applying migration rest).next
            plan.migrations system.ledger =
              some (.ok ({ system.ledger with contents := contents },
                .recording migration rest)) := by
          simp [Stage.next, happly]
        have hrecordNext : (Stage.recording migration rest).next
            plan.migrations { system.ledger with contents := contents } =
              some (.ok (⟨contents, some (versions ++ [migration.version])⟩,
                loop rest)) := by
          simp [Stage.next, hversions, hmem]
        have hcheck := plan.step_of_next hstage hcheckNext
        have happlied := plan.step_of_next
          (System.moveTo_stage_self system id _) happlyNext
        have hrecorded := plan.step_of_next
          (System.moveTo_stage_self { system.moveTo id
              (.applying migration rest) with
            ledger := { system.ledger with contents := contents } } id
            (.recording migration rest)) hrecordNext
        obtain ⟨turns, finish, hturns, hexec, hdone, -⟩ :=
          ih (((hsound.step hcheck).step happlied).step hrecorded)
            (System.moveTo_stage_self _ _ _)
        refine ⟨turns + 3, finish, ?_, ?_,
          hdone.after_move.after_move.after_move, ?_⟩
        · rw [List.length_cons]
          omega
        · rw [List.replicate_succ, List.replicate_succ, List.replicate_succ]
          exact exec_cons_eq_some.mpr ⟨_, hcheck, exec_cons_eq_some.mpr
            ⟨_, happlied, exec_cons_eq_some.mpr ⟨_, hrecorded, hexec⟩⟩⟩
        · intro hall
          exact absurd hall (Plan.not_all_recorded hbefore hversions hmem)

/-- A process that is started again and left alone goes through the plan. -/
theorem Plan.Sound.completes
    {system : System Db} (hsound : plan.Sound system) (id : ℕ) :
    ∃ turns finish, turns ≤ 2 + 3 * plan.migrations.length ∧
      exec (System.step plan.migrations plan.run) system
        (.restart id :: .start id ::
          List.replicate turns (.statement id .answered)) = some finish ∧
      System.Completed id system finish ∧
      (plan.Before system.ledger [] → finish.ledger = system.ledger) := by
  have hrestart : system.step plan.migrations plan.run (.restart id) =
      some (system.moveTo id .idle) := rfl
  have hstart : (system.moveTo id .idle).step plan.migrations plan.run
      (.start id) = some ((system.moveTo id .idle).moveTo id .connecting) := by
    simp [System.step]
  have hconnect := plan.step_of_next
    (System.moveTo_stage_self (system.moveTo id .idle) id .connecting) rfl
  have hprepare := plan.step_of_next
    (System.moveTo_stage_self
      ((system.moveTo id .idle).moveTo id .connecting) id .preparing) rfl
  have hready := (((hsound.step hrestart).step hstart).step hconnect).step
    hprepare
  obtain ⟨turns, finish, hturns, hexec, hdone, hsame⟩ :=
    hready.loop_completes plan.migrations (System.moveTo_stage_self _ _ _)
  refine ⟨turns + 2, finish, by omega, ?_,
    hdone.after_move.after_move.after_move.after_move, ?_⟩
  · rw [List.replicate_succ, List.replicate_succ]
    exact exec_cons_eq_some.mpr ⟨_, hrestart, exec_cons_eq_some.mpr
      ⟨_, hstart, exec_cons_eq_some.mpr ⟨_, hconnect, exec_cons_eq_some.mpr
        ⟨_, hprepare, hexec⟩⟩⟩⟩
  · rintro ⟨past, versions, hplan, hversions, hpast⟩
    have hledger : ({ system.ledger with
        recorded := some (system.ledger.recorded.getD []) } : Ledger Db) =
        system.ledger := by
      rw [hversions]
      cases hledger : system.ledger
      simp_all
    rw [hsame ⟨past, versions, hplan, by simp [hversions], hpast⟩]
    exact hledger

end SoulonWallet.MigrationRun
