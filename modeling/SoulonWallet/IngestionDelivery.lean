import Mathlib.Tactic
import SoulonWallet.KafkaIngestion
import SoulonWallet.LabelledRun

/-!
# At-least-once ingestion

A committed offset is never fetched again, so the event of a committed message
must have reached the store or the dead-letter topic.  `Consume` commits right
after the hand-over, while `persistWithRetry` may still fail or the process
may crash.  The events are safe in the runs that are `Orderly`: an offset is
stored only when no event of its partition is outstanding in the worker, the
backoff is not left by cancellation, and a dead letter that is due is written.
-/

namespace SoulonWallet.Indexer

open LabelledRun

def Event.stamped (event : Event) (partition : ℤ) (offset : ℕ) : Event :=
  { event with partition, offset }

/-- The event of the message the consumer has decoded but not handed over. -/
def Consumer.event : Consumer → Option Event
  | .decoded _ event => some event
  | .pausing _ event => some event
  | .handingOff _ event => some event
  | _ => none

def Consumer.fetched : Consumer → Option Fetched
  | .rejecting fetched => some fetched
  | .committingInvalid fetched => some fetched
  | .decoded fetched _ => some fetched
  | .pausing fetched _ => some fetched
  | .handingOff fetched _ => some fetched
  | .committing fetched => some fetched
  | _ => none

/-- The event `persistWithRetry` still has to store or to dead-letter. -/
def ConsumeLoop.outstanding : ConsumeLoop → Option Event
  | .upserting event _ => some event
  | .backingOff event _ => some event
  | .deadLettering event _ => some event
  | _ => none

namespace Ingestion

variable {setup : Setup}

/-- The event was accepted by the store or written to the dead letters. -/
def Settled (setup : Setup) (state : Ingestion) (event : Event) : Prop :=
  event ∈ state.accepted ∨
    ∃ payload reason, setup.marshal event = some payload ∧
      { key := bytes event.id, payload, reason } ∈ state.deadLetters

/-- The event of every committed message is settled. -/
def Delivered (setup : Setup) (state : Ingestion) : Prop :=
  ∀ partition offset message event,
    offset < state.committed partition →
      (state.topic partition)[offset]? = some message →
        setup.unmarshal message.value = some event →
          Settled setup state (event.stamped partition offset)

/-- The commit, backoff and dead-letter outcomes that lose no event. -/
def Orderly (setup : Setup) (state : Ingestion) (action : Action) : Prop :=
  ∀ process, state.process = some process →
    match action with
    | .commit stored _ =>
        stored = true →
          ∀ fetched event, process.consumer.fetched = some fetched →
            process.worker.outstanding = some event →
              event.partition ≠ fetched.partition
    | .backoffCancelled => False
    | .publishDeadLetter written =>
        written = true ∧ process.dlqWriter = true ∧
          ∀ event, process.worker.outstanding = some event →
            (setup.marshal event).isSome
    | _ => True

/-- Every decodable message below the reader's position is settled or on its
way through the process. -/
structure Tracked (setup : Setup) (state : Ingestion) (process : Process) :
    Prop where
  committed_le : ∀ partition,
    state.committed partition ≤ process.position partition
  position_le : ∀ partition,
    process.position partition ≤ (state.topic partition).length
  fetched_lt : ∀ fetched, process.consumer.fetched = some fetched →
    fetched.offset < process.position fetched.partition
  accounted : process.consumer ≠ .returned →
    ∀ partition offset message event,
      offset < process.position partition →
        (state.topic partition)[offset]? = some message →
          setup.unmarshal message.value = some event →
            Settled setup state (event.stamped partition offset) ∨
              process.consumer.event =
                some (event.stamped partition offset) ∨
              process.worker.outstanding =
                some (event.stamped partition offset)

structure Sound (setup : Setup) (state : Ingestion) : Prop where
  delivered : Delivered setup state
  committed_le : ∀ partition,
    state.committed partition ≤ (state.topic partition).length
  tracked : ∀ process, state.process = some process →
    Tracked setup state process

theorem initial_sound (setup : Setup) : Sound setup initial where
  delivered := by
    intro partition offset message event hoffset
    simp [initial] at hoffset
  committed_le := by simp [initial]
  tracked := by simp [initial]

/-- A step inside the process that loses no event and stores no offset. -/
structure Passes (setup : Setup) (state : Ingestion) (process : Process)
    (next : Ingestion) (after : Process) : Prop where
  process_eq : next.process = some after
  topic_eq : next.topic = state.topic
  committed_eq : next.committed = state.committed
  position_eq : after.position = process.position
  settled_mono : ∀ event, Settled setup state event → Settled setup next event
  fetched_of : ∀ fetched, after.consumer.fetched = some fetched →
    process.consumer.fetched = some fetched
  running_of : after.consumer ≠ .returned → process.consumer ≠ .returned
  consumer_event : after.consumer ≠ .returned →
    ∀ event, process.consumer.event = some event →
      after.consumer.event = some event ∨
        after.worker.outstanding = some event
  worker_event : ∀ event, process.worker.outstanding = some event →
    Settled setup next event ∨ after.worker.outstanding = some event

theorem Sound.passes
    {state next : Ingestion} {process after : Process}
    (hsound : Sound setup state) (hprocess : state.process = some process)
    (hpasses : Passes setup state process next after) :
    Sound setup next := by
  have htracked := hsound.tracked process hprocess
  constructor
  · intro partition offset message event hoffset hmessage hevent
    rw [hpasses.committed_eq] at hoffset
    rw [hpasses.topic_eq] at hmessage
    exact hpasses.settled_mono _
      (hsound.delivered partition offset message event hoffset hmessage hevent)
  · intro partition
    rw [hpasses.committed_eq, hpasses.topic_eq]
    exact hsound.committed_le partition
  · intro other hother
    have heq : other = after := by
      rw [hpasses.process_eq, Option.some.injEq] at hother
      exact hother.symm
    subst other
    constructor
    · intro partition
      rw [hpasses.committed_eq, hpasses.position_eq]
      exact htracked.committed_le partition
    · intro partition
      rw [hpasses.topic_eq, hpasses.position_eq]
      exact htracked.position_le partition
    · intro fetched hfetched
      rw [hpasses.position_eq]
      exact htracked.fetched_lt fetched (hpasses.fetched_of fetched hfetched)
    · intro hrunning partition offset message event hoffset hmessage hevent
      rw [hpasses.position_eq] at hoffset
      rw [hpasses.topic_eq] at hmessage
      rcases htracked.accounted (hpasses.running_of hrunning) partition offset
          message event hoffset hmessage hevent with
        hsettled | hconsumer | hworker
      · exact Or.inl (hpasses.settled_mono _ hsettled)
      · exact Or.inr (hpasses.consumer_event hrunning _ hconsumer)
      · rcases hpasses.worker_event _ hworker with hsettled | houtstanding
        · exact Or.inl hsettled
        · exact Or.inr (Or.inr houtstanding)

theorem settled_writeDeadLetter
    {state : Ingestion} {event : Event} (dlqWriter written : Bool)
    (letter : DeadLetter) (hsettled : Settled setup state event) :
    Settled setup (state.writeDeadLetter dlqWriter written letter) event := by
  unfold writeDeadLetter
  split
  · rcases hsettled with haccepted | ⟨payload, reason, hpayload, hletter⟩
    · exact Or.inl haccepted
    · exact Or.inr ⟨payload, reason, hpayload,
        List.mem_append_left _ hletter⟩
  · exact hsettled

@[simp] theorem writeDeadLetter_topic (state : Ingestion)
    (dlqWriter written : Bool) (letter : DeadLetter) :
    (state.writeDeadLetter dlqWriter written letter).topic = state.topic := by
  unfold writeDeadLetter
  split <;> rfl

@[simp] theorem writeDeadLetter_committed (state : Ingestion)
    (dlqWriter written : Bool) (letter : DeadLetter) :
    (state.writeDeadLetter dlqWriter written letter).committed =
      state.committed := by
  unfold writeDeadLetter
  split <;> rfl

theorem passes_consumer
    {state next : Ingestion} {process : Process} {consumer : Consumer}
    (pausedPartitions : Finset ℤ)
    (htopic : next.topic = state.topic)
    (hcommitted : next.committed = state.committed)
    (hsettled : ∀ event, Settled setup state event → Settled setup next event)
    (hrunning : process.consumer ≠ .returned)
    (hfetched : ∀ fetched, consumer.fetched = some fetched →
      process.consumer.fetched = some fetched)
    (hevent : process.consumer.event = consumer.event) :
    Passes setup state process
      (next.withProcess { process with pausedPartitions, consumer })
      { process with pausedPartitions, consumer } where
  process_eq := rfl
  topic_eq := htopic
  committed_eq := hcommitted
  position_eq := rfl
  settled_mono := hsettled
  fetched_of := hfetched
  running_of := fun _ => hrunning
  consumer_event := by
    intro _ event hheld
    exact Or.inl (hevent ▸ hheld)
  worker_event := by
    intro event hheld
    exact Or.inr hheld

/-- Once the consumer has returned nothing is committed any more, and the
message it may have held is fetched again after a restart. -/
theorem passes_consumerReturns
    {state : Ingestion} {process : Process}
    (hrunning : process.consumer ≠ .returned) :
    Passes setup state process (state.withProcess process.consumerReturns)
      process.consumerReturns where
  process_eq := rfl
  topic_eq := rfl
  committed_eq := rfl
  position_eq := rfl
  settled_mono := fun _ hsettled => hsettled
  fetched_of := by simp [Process.consumerReturns, Consumer.fetched]
  running_of := fun _ => hrunning
  consumer_event := by simp [Process.consumerReturns]
  worker_event := by
    intro event hheld
    exact Or.inr hheld

theorem passes_worker
    {state next : Ingestion} {process : Process} {worker : ConsumeLoop}
    (pausedPartitions : Finset ℤ)
    (htopic : next.topic = state.topic)
    (hcommitted : next.committed = state.committed)
    (hsettled : ∀ event, Settled setup state event → Settled setup next event)
    (hworker : ∀ event, process.worker.outstanding = some event →
      Settled setup next event ∨ worker.outstanding = some event) :
    Passes setup state process
      (next.withProcess { process with pausedPartitions, worker })
      { process with pausedPartitions, worker } where
  process_eq := rfl
  topic_eq := htopic
  committed_eq := hcommitted
  position_eq := rfl
  settled_mono := hsettled
  fetched_of := fun _ hfetched => hfetched
  running_of := fun hrunning => hrunning
  consumer_event := by
    intro _ event hheld
    exact Or.inl hheld
  worker_event := hworker

theorem Sound.consumerMoves
    {state : Ingestion} {process : Process} {consumer : Consumer}
    (hsound : Sound setup state) (hprocess : state.process = some process)
    (hrunning : process.consumer ≠ .returned)
    (hfetched : ∀ fetched, consumer.fetched = some fetched →
      process.consumer.fetched = some fetched)
    (hevent : process.consumer.event = consumer.event)
    (pausedPartitions : Finset ℤ) :
    Sound setup
      (state.withProcess { process with pausedPartitions, consumer }) :=
  hsound.passes hprocess
    (passes_consumer pausedPartitions rfl rfl (fun _ hsettled => hsettled)
      hrunning hfetched hevent)

theorem Sound.consumerReturns
    {state : Ingestion} {process : Process}
    (hsound : Sound setup state) (hprocess : state.process = some process)
    (hrunning : process.consumer ≠ .returned) :
    Sound setup (state.withProcess process.consumerReturns) :=
  hsound.passes hprocess (passes_consumerReturns hrunning)

theorem Sound.workerMoves
    {state : Ingestion} {process : Process} {worker : ConsumeLoop}
    (hsound : Sound setup state) (hprocess : state.process = some process)
    (hheld : ∀ event, process.worker.outstanding = some event →
      worker.outstanding = some event)
    (pausedPartitions : Finset ℤ) :
    Sound setup
      (state.withProcess { process with pausedPartitions, worker }) := by
  apply hsound.passes hprocess
  apply passes_worker pausedPartitions rfl rfl (fun _ hsettled => hsettled)
  intro event houtstanding
  exact Or.inr (hheld event houtstanding)

theorem Sound.accepts
    {state : Ingestion} {process : Process} {event : Event} {attempt : ℤ}
    (hsound : Sound setup state) (hprocess : state.process = some process)
    (hworker : process.worker = .upserting event attempt) :
    Sound setup
      ({ state with accepted := state.accepted ++ [event] }.withProcess
        { process with worker := .receiving }) := by
  apply hsound.passes hprocess
  apply passes_worker process.pausedPartitions
  · rfl
  · rfl
  · intro other hsettled
    rcases hsettled with haccepted | hletter
    · exact Or.inl (List.mem_append_left _ haccepted)
    · exact Or.inr hletter
  · intro other houtstanding
    have heq : event = other := by
      simpa [hworker, ConsumeLoop.outstanding] using houtstanding
    exact Or.inl (Or.inl (by simp [heq]))

theorem Sound.deadLetters
    {state : Ingestion} {process : Process} {event : Event}
    {lastErr : String} {payload : List UInt8}
    (hsound : Sound setup state) (hprocess : state.process = some process)
    (hworker : process.worker = .deadLettering event lastErr)
    (hwriter : process.dlqWriter = true)
    (hpayload : setup.marshal event = some payload) :
    Sound setup
      ((state.writeDeadLetter process.dlqWriter true
          { key := bytes event.id, payload, reason := lastErr }).withProcess
        { process with worker := .pausingPartition event lastErr }) := by
  apply hsound.passes hprocess
  apply passes_worker process.pausedPartitions
  · simp
  · simp
  · intro other
    exact settled_writeDeadLetter _ _ _
  · intro other houtstanding
    have heq : event = other := by
      simpa [hworker, ConsumeLoop.outstanding] using houtstanding
    subst other
    refine Or.inl (Or.inr ⟨payload, lastErr, hpayload, ?_⟩)
    simp [writeDeadLetter, hwriter]

theorem Sound.produce
    {state : Ingestion} (hsound : Sound setup state)
    (partition : ℤ) (message : Message) :
    Sound setup
      { state with
        topic := Function.update state.topic partition
          (state.topic partition ++ [message]) } := by
  let topic := Function.update state.topic partition
    (state.topic partition ++ [message])
  have hlength : ∀ other,
      (state.topic other).length ≤ (topic other).length := by
    intro other
    by_cases heq : other = partition
    · subst other
      simp [topic]
    · simp [topic, heq]
  have hold : ∀ other offset, offset < (state.topic other).length →
      (topic other)[offset]? = (state.topic other)[offset]? := by
    intro other offset hoffset
    by_cases heq : other = partition
    · subst other
      simp [topic, List.getElem?_append_left hoffset]
    · simp [topic, heq]
  constructor
  · intro other offset found event hoffset hfound hevent
    have hbound := lt_of_lt_of_le hoffset (hsound.committed_le other)
    exact hsound.delivered other offset found event hoffset
      ((hold other offset hbound).symm.trans hfound) hevent
  · intro other
    exact le_trans (hsound.committed_le other) (hlength other)
  · intro process hprocess
    have htracked := hsound.tracked process hprocess
    constructor
    · exact htracked.committed_le
    · intro other
      exact le_trans (htracked.position_le other) (hlength other)
    · exact htracked.fetched_lt
    · intro hrunning other offset found event hoffset hfound hevent
      have hbound := lt_of_lt_of_le hoffset (htracked.position_le other)
      exact htracked.accounted hrunning other offset found event hoffset
        ((hold other offset hbound).symm.trans hfound) hevent

theorem Sound.restart
    {state : Ingestion} (hsound : Sound setup state) :
    Sound setup (state.withProcess (state.start setup)) := by
  constructor
  · exact hsound.delivered
  · exact hsound.committed_le
  · intro process hprocess
    have heq : process = state.start setup := by
      simpa [withProcess] using hprocess.symm
    subst process
    constructor
    · intro partition
      exact le_refl _
    · exact hsound.committed_le
    · simp [start, Consumer.fetched]
    · intro _ partition offset message event hoffset hmessage hevent
      exact Or.inl
        (hsound.delivered partition offset message event hoffset hmessage
          hevent)

theorem Sound.crash
    {state : Ingestion} (hsound : Sound setup state) :
    Sound setup { state with process := none } where
  delivered := hsound.delivered
  committed_le := hsound.committed_le
  tracked := by simp

theorem Sound.cancel
    {state : Ingestion} {process : Process}
    (hsound : Sound setup state) (hprocess : state.process = some process) :
    Sound setup (state.withProcess { process with cancelled := true }) := by
  have htracked := hsound.tracked process hprocess
  constructor
  · exact hsound.delivered
  · exact hsound.committed_le
  · intro other hother
    have heq : other = { process with cancelled := true } := by
      simpa [withProcess] using hother.symm
    subst other
    exact ⟨htracked.committed_le, htracked.position_le, htracked.fetched_lt,
      htracked.accounted⟩

theorem decode_fetched (setup : Setup) (fetched : Fetched) :
    (decode setup fetched).fetched = some fetched := by
  unfold decode
  split <;> rfl

theorem decode_event
    {fetched : Fetched} {event : Event}
    (hevent : setup.unmarshal fetched.message.value = some event) :
    (decode setup fetched).event =
      some (event.stamped fetched.partition fetched.offset) := by
  simp [decode, hevent, Consumer.event, Event.stamped]

theorem Sound.fetch
    {state : Ingestion} {process : Process} {partition : ℤ}
    {message : Message}
    (hsound : Sound setup state) (hprocess : state.process = some process)
    (hfetching : process.consumer = .fetching)
    (hmessage : (state.topic partition)[process.position partition]? =
      some message) :
    Sound setup (state.withProcess (process.advance partition
      (decode setup
        { partition, offset := process.position partition, message }))) := by
  have htracked := hsound.tracked process hprocess
  have hlt : process.position partition < (state.topic partition).length :=
    (List.getElem?_eq_some_iff.mp hmessage).1
  constructor
  · exact hsound.delivered
  · exact hsound.committed_le
  · intro other hother
    have heq : other = process.advance partition
        (decode setup
          { partition, offset := process.position partition, message }) := by
      simpa [withProcess] using hother.symm
    subst other
    constructor
    · intro target
      have hcommitted := htracked.committed_le target
      by_cases heq : target = partition
      · subst target
        simp only [withProcess, Process.advance, Function.update_self]
        omega
      · simpa [withProcess, Process.advance, heq] using hcommitted
    · intro target
      have hposition := htracked.position_le target
      by_cases heq : target = partition
      · subst target
        simp only [withProcess, Process.advance, Function.update_self]
        omega
      · simpa [withProcess, Process.advance, heq] using hposition
    · intro fetched hfetched
      simp only [Process.advance, decode_fetched, Option.some.injEq]
        at hfetched
      subst fetched
      simp [Process.advance]
    · intro _ target offset found event hoffset hfound hevent
      by_cases hnew : target = partition ∧ offset = process.position partition
      · rcases hnew with ⟨rfl, rfl⟩
        have hsame : found = message := by
          have : some found = some message := hfound.symm.trans hmessage
          simpa using this
        subst found
        exact Or.inr (Or.inl (decode_event hevent))
      · have hbelow : offset < process.position target := by
          by_cases heq : target = partition
          · subst target
            have hne : offset ≠ process.position partition := by
              intro hsame
              exact hnew ⟨rfl, hsame⟩
            simp only [Process.advance, Function.update_self] at hoffset
            omega
          · simpa [Process.advance, heq] using hoffset
        rcases htracked.accounted (by simp [hfetching]) target offset found
            event hbelow hfound hevent with hsettled | hconsumer | hworker
        · exact Or.inl hsettled
        · simp [hfetching, Consumer.event] at hconsumer
        · exact Or.inr (Or.inr hworker)

/-- An offset is stored while no event of its partition is outstanding: all
messages up to it are settled. -/
theorem Sound.commitOffset
    {state : Ingestion} {process : Process} {fetched : Fetched}
    {stored : Bool}
    (hsound : Sound setup state) (hprocess : state.process = some process)
    (hrunning : process.consumer ≠ .returned)
    (hfetched : process.consumer.fetched = some fetched)
    (hhanded : process.consumer.event = none)
    (horderly : stored = true → ∀ event,
      process.worker.outstanding = some event →
        event.partition ≠ fetched.partition) :
    Sound setup (state.commitOffset fetched stored) := by
  cases stored with
  | false => exact hsound
  | true =>
      have htracked := hsound.tracked process hprocess
      have hoffset := htracked.fetched_lt fetched hfetched
      have hposition := htracked.position_le fetched.partition
      constructor
      · intro partition offset message event hbelow hmessage hevent
        by_cases heq : partition = fetched.partition
        · subst partition
          simp only [Ingestion.commitOffset, if_true, Function.update_self]
            at hbelow
          have hread : offset < process.position fetched.partition := by
            omega
          rcases htracked.accounted hrunning fetched.partition offset message
              event hread hmessage hevent with hsettled | hconsumer | hworker
          · exact hsettled
          · simp [hhanded] at hconsumer
          · exact absurd rfl (horderly rfl _ hworker)
        · simp only [Ingestion.commitOffset, if_true, ne_eq, heq,
            not_false_eq_true, Function.update_of_ne] at hbelow
          exact hsound.delivered partition offset message event hbelow
            hmessage hevent
      · intro partition
        have hcommitted := hsound.committed_le partition
        by_cases heq : partition = fetched.partition
        · subst partition
          simp only [Ingestion.commitOffset, if_true, Function.update_self]
          omega
        · simpa [Ingestion.commitOffset, heq] using hcommitted
      · intro other hother
        have heq : other = process := by
          have hsame : some other = some process := hother.symm.trans hprocess
          simpa using hsame
        subst other
        constructor
        · intro partition
          have hcommitted := htracked.committed_le partition
          by_cases heq : partition = fetched.partition
          · subst partition
            simp only [Ingestion.commitOffset, if_true, Function.update_self]
            omega
          · simpa [Ingestion.commitOffset, heq] using hcommitted
        · exact htracked.position_le
        · exact htracked.fetched_lt
        · exact htracked.accounted

@[simp] theorem commitOffset_process (state : Ingestion) (fetched : Fetched)
    (stored : Bool) :
    (state.commitOffset fetched stored).process = state.process := by
  cases stored <;> rfl

theorem Sound.commit
    {state next : Ingestion} {process : Process} {stored failed : Bool}
    (hsound : Sound setup state) (hprocess : state.process = some process)
    (horderly : Orderly setup state (.commit stored failed))
    (hstep : consumeStep setup state process (.commit stored failed) =
      some next) :
    Sound setup next := by
  have hcommit : ∀ fetched, process.consumer ≠ .returned →
      process.consumer.fetched = some fetched →
        process.consumer.event = none →
          Sound setup (state.commitOffset fetched stored) := by
    intro fetched hrunning hfetched hhanded
    apply hsound.commitOffset hprocess hrunning hfetched hhanded
    intro hstored event houtstanding
    exact horderly process hprocess hstored fetched event hfetched
      houtstanding
  cases hconsumer : process.consumer with
  | committingInvalid fetched =>
      simp only [Indexer.consumeStep, hconsumer, Option.some.injEq] at hstep
      have hcommitted := hcommit fetched (by simp [hconsumer])
        (by simp [hconsumer, Consumer.fetched])
        (by simp [hconsumer, Consumer.event])
      exact hstep ▸ hcommitted.consumerMoves (by simpa using hprocess)
        (by simp [hconsumer]) (by simp [Consumer.fetched])
        (by simp [hconsumer, Consumer.event]) _
  | committing fetched =>
      have hcommitted := hcommit fetched (by simp [hconsumer])
        (by simp [hconsumer, Consumer.fetched])
        (by simp [hconsumer, Consumer.event])
      simp only [Indexer.consumeStep, hconsumer] at hstep
      split at hstep
      · simp only [Option.some.injEq] at hstep
        exact hstep ▸ hcommitted.consumerReturns (by simpa using hprocess)
          (by simp [hconsumer])
      · simp only [Option.some.injEq] at hstep
        exact hstep ▸ hcommitted.consumerMoves (by simpa using hprocess)
          (by simp [hconsumer]) (by simp [Consumer.fetched])
          (by simp [hconsumer, Consumer.event]) _
  | _ => simp [Indexer.consumeStep, hconsumer] at hstep

theorem Sound.readPause
    {state next : Ingestion} {process : Process} {elapsed : Bool}
    (hsound : Sound setup state) (hprocess : state.process = some process)
    (hstep : consumeStep setup state process (.readPause elapsed) =
      some next) :
    Sound setup next := by
  cases hconsumer : process.consumer with
  | decoded fetched event =>
      have hmoves : ∀ (consumer : Consumer) (pausedPartitions : Finset ℤ),
          consumer.fetched = some fetched → consumer.event = some event →
            Sound setup (state.withProcess
              { process with pausedPartitions, consumer }) := by
        intro consumer pausedPartitions hfetched hevent
        apply hsound.consumerMoves hprocess
        · simp [hconsumer]
        · rw [hfetched, hconsumer]
          exact fun _ hsame => hsame
        · rw [hevent, hconsumer]
          rfl
      simp only [Indexer.consumeStep, hconsumer] at hstep
      split at hstep
      · split at hstep
        · exact Option.some.inj hstep ▸
            hmoves (.handingOff fetched event) _ rfl rfl
        · exact Option.some.inj hstep ▸
            hmoves (.pausing fetched event) _ rfl rfl
      · exact Option.some.inj hstep ▸
          hmoves (.handingOff fetched event) _ rfl rfl
  | _ => simp [Indexer.consumeStep, hconsumer] at hstep

theorem Sound.consumeStep
    {state next : Ingestion} {process : Process} {action : Action}
    (hsound : Sound setup state) (hprocess : state.process = some process)
    (horderly : Orderly setup state action)
    (hstep : consumeStep setup state process action = some next) :
    Sound setup next := by
  cases action with
  | fetch partition =>
      cases hconsumer : process.consumer with
      | fetching =>
          cases hmessage :
              (state.topic partition)[process.position partition]? with
          | none => simp [Indexer.consumeStep, hconsumer, hmessage] at hstep
          | some message =>
              simp only [Indexer.consumeStep, hconsumer, hmessage,
                Option.some.injEq] at hstep
              subst next
              exact hsound.fetch hprocess hconsumer hmessage
      | _ => simp [Indexer.consumeStep, hconsumer] at hstep
  | fetchFails =>
      cases hconsumer : process.consumer with
      | fetching =>
          simp only [Indexer.consumeStep, hconsumer] at hstep
          split at hstep
          · simp only [Option.some.injEq] at hstep
            subst next
            exact hsound.consumerReturns hprocess (by simp [hconsumer])
          · simp only [Option.some.injEq] at hstep
            exact hstep ▸ hsound
      | _ => simp [Indexer.consumeStep, hconsumer] at hstep
  | publishInvalid written =>
      cases hconsumer : process.consumer with
      | rejecting fetched =>
          simp only [Indexer.consumeStep, hconsumer, Option.some.injEq]
            at hstep
          subst next
          apply hsound.passes hprocess
          apply passes_consumer process.pausedPartitions
          · simp
          · simp
          · intro event
            exact settled_writeDeadLetter _ _ _
          · simp [hconsumer]
          · simp [hconsumer, Consumer.fetched]
          · simp [hconsumer, Consumer.event]
      | _ => simp [Indexer.consumeStep, hconsumer] at hstep
  | readPause elapsed => exact hsound.readPause hprocess hstep
  | pauseOver =>
      cases hconsumer : process.consumer with
      | pausing fetched event =>
          simp only [Indexer.consumeStep, hconsumer, Option.some.injEq]
            at hstep
          exact hstep ▸ hsound.consumerMoves hprocess (by simp [hconsumer])
            (by simp [hconsumer, Consumer.fetched])
            (by simp [hconsumer, Consumer.event]) _
      | _ => simp [Indexer.consumeStep, hconsumer] at hstep
  | contextDone =>
      have hrunning : process.consumer ≠ .returned := by
        intro hreturned
        simp [Indexer.consumeStep, hreturned] at hstep
      have hnext : next = state.withProcess process.consumerReturns := by
        cases hconsumer : process.consumer <;>
          simp_all [Indexer.consumeStep]
      exact hnext ▸ hsound.consumerReturns hprocess hrunning
  | commit stored failed => exact hsound.commit hprocess horderly hstep
  | _ => simp [Indexer.consumeStep] at hstep

theorem Sound.workerStep
    {state next : Ingestion} {process : Process} {action : Action}
    (hsound : Sound setup state) (hprocess : state.process = some process)
    (horderly : Orderly setup state action)
    (hstep : workerStep setup state process action = some next) :
    Sound setup next := by
  cases action with
  | streamClosed =>
      cases hconsumer : process.consumer with
      | returned =>
          cases hworker : process.worker with
          | receiving =>
              simp only [Indexer.workerStep, hconsumer, hworker,
                Option.some.injEq] at hstep
              subst next
              simpa only [hconsumer] using
                hsound.workerMoves hprocess
                  (by simp [hworker, ConsumeLoop.outstanding])
                  process.pausedPartitions
          | _ => simp [Indexer.workerStep, hconsumer, hworker] at hstep
      | _ => simp [Indexer.workerStep, hconsumer] at hstep
  | upsert result =>
      cases hworker : process.worker with
      | upserting event attempt =>
          cases result with
          | ok created =>
              simp only [Indexer.workerStep, hworker, Option.some.injEq]
                at hstep
              exact hstep ▸ hsound.accepts hprocess hworker
          | error err =>
              simp only [Indexer.workerStep, hworker] at hstep
              split at hstep
              · simp only [Option.some.injEq] at hstep
                exact hstep ▸ hsound.workerMoves hprocess
                  (by simp [hworker, ConsumeLoop.outstanding]) _
              · simp only [Option.some.injEq] at hstep
                exact hstep ▸ hsound.workerMoves hprocess
                  (by simp [hworker, ConsumeLoop.outstanding]) _
      | _ => simp [Indexer.workerStep, hworker] at hstep
  | backoffOver =>
      cases hworker : process.worker with
      | backingOff event attempt =>
          simp only [Indexer.workerStep, hworker, Option.some.injEq] at hstep
          exact hstep ▸ hsound.workerMoves hprocess
            (by simp [hworker, ConsumeLoop.outstanding]) _
      | _ => simp [Indexer.workerStep, hworker] at hstep
  | backoffCancelled => exact absurd (horderly process hprocess) id
  | publishDeadLetter written =>
      cases hworker : process.worker with
      | deadLettering event lastErr =>
          obtain ⟨hwritten, hwriter, hmarshal⟩ := horderly process hprocess
          have hencodes := hmarshal event
            (by simp [hworker, ConsumeLoop.outstanding])
          cases hpayload : setup.marshal event with
          | none => simp [hpayload] at hencodes
          | some payload =>
              simp only [Indexer.workerStep, hworker, hpayload,
                Option.some.injEq] at hstep
              subst next written
              exact hsound.deadLetters hprocess hworker hwriter hpayload
      | _ => simp [Indexer.workerStep, hworker] at hstep
  | pausePartition =>
      cases hworker : process.worker with
      | pausingPartition event lastErr =>
          simp only [Indexer.workerStep, hworker, Option.some.injEq] at hstep
          exact hstep ▸ hsound.workerMoves hprocess
            (by simp [hworker, ConsumeLoop.outstanding]) _
      | _ => simp [Indexer.workerStep, hworker] at hstep
  | _ => simp [Indexer.workerStep] at hstep

theorem Sound.handOff
    {state next : Ingestion} {process : Process}
    (hsound : Sound setup state) (hprocess : state.process = some process)
    (hstep : handOff state process = some next) :
    Sound setup next := by
  cases hconsumer : process.consumer with
  | handingOff fetched event =>
      cases hworker : process.worker with
      | receiving =>
          simp only [Indexer.handOff, hconsumer, hworker, Option.some.injEq]
            at hstep
          subst next
          apply hsound.passes hprocess
          exact
            { process_eq := rfl
              topic_eq := rfl
              committed_eq := rfl
              position_eq := rfl
              settled_mono := fun _ hsettled => hsettled
              fetched_of := by simp [hconsumer, Consumer.fetched]
              running_of := by simp [hconsumer]
              consumer_event := by
                simp [hconsumer, Consumer.event, ConsumeLoop.outstanding]
              worker_event := by simp [hworker, ConsumeLoop.outstanding] }
      | _ => simp [Indexer.handOff, hconsumer, hworker] at hstep
  | _ => simp [Indexer.handOff, hconsumer] at hstep

theorem Sound.step
    {state next : Ingestion} {action : Action}
    (hsound : Sound setup state) (horderly : Orderly setup state action)
    (hstep : step setup state action = some next) :
    Sound setup next := by
  cases hprocess : state.process with
  | none =>
      cases action with
      | produce partition message =>
          simp only [Ingestion.step, Option.some.injEq] at hstep
          exact hstep ▸ hsound.produce partition message
      | restart =>
          simp only [Ingestion.step, hprocess, Option.some.injEq] at hstep
          exact hstep ▸ hsound.restart
      | _ => simp [Ingestion.step, hprocess] at hstep
  | some process =>
      cases action with
      | produce partition message =>
          simp only [Ingestion.step, Option.some.injEq] at hstep
          exact hstep ▸ hsound.produce partition message
      | restart => simp [Ingestion.step, hprocess] at hstep
      | crash =>
          simp only [Ingestion.step, hprocess, Option.some.injEq] at hstep
          exact hstep ▸ hsound.crash
      | cancel =>
          simp only [Ingestion.step, hprocess, Option.some.injEq] at hstep
          exact hstep ▸ hsound.cancel hprocess
      | handOff =>
          simp only [Ingestion.step, hprocess] at hstep
          exact hsound.handOff hprocess hstep
      | fetch | fetchFails | publishInvalid | readPause | pauseOver
      | contextDone | commit =>
          simp only [Ingestion.step, hprocess] at hstep
          exact hsound.consumeStep hprocess horderly hstep
      | streamClosed | upsert | backoffOver | backoffCancelled
      | publishDeadLetter | pausePartition =>
          simp only [Ingestion.step, hprocess] at hstep
          exact hsound.workerStep hprocess horderly hstep

/-- In an orderly run, with any interleaving of the goroutines, any failures
of the store and any crashes, every committed event is settled. -/
theorem delivered_of_orderly
    {actions : List Action} {state : Ingestion}
    (horderly : Guarded (step setup) (Orderly setup) initial actions)
    (hvisit : Visits (step setup) initial actions state) :
    Delivered setup state := by
  have hsound : Sound setup state :=
    horderly.invariant_of_visits (Sound setup)
      (fun _ _ _ hsound hguard hstep => hsound.step hguard hstep)
      (initial_sound setup) hvisit
  exact hsound.delivered

end Ingestion

def blockMessage : Message where
  key := bytes "block-1-a"
  value := bytes
    "\x7b\"id\":\"block-1-a\",\"height\":1,\"type\":\"new_block\"\x7d"

def blockEvent : Event where
  id := "block-1-a"
  height := 1
  type := "new_block"

/-- The coding of one event, in the default worker without a dead-letter
topic. -/
def blockSetup : Setup where
  unmarshal := fun value =>
    if value = blockMessage.value then some blockEvent else none
  marshal := fun event =>
    if event.stamped 0 0 = blockEvent then
      some (bytes
        ("\x7b\"id\":\"block-1-a\",\"height\":1,\"type\":\"new_block\"," ++
          "\"payload\":\"\",\"producedAt\":\"0001-01-01T00:00:00Z\"," ++
          "\"persistedAt\":\"0001-01-01T00:00:00Z\"\x7d"))
    else none
  dlqTopic := ""
  workerOptions := {}

def handOffActions : List Action :=
  [.produce 0 blockMessage, .restart, .fetch 0, .readPause false, .handOff]

def retriedActions : List Action :=
  handOffActions ++
    [.upsert (.error "injected failure"), .backoffOver, .upsert (.ok true),
      .commit true false]

theorem delivered_of_retriedActions :
    Guarded (Ingestion.step blockSetup) (Ingestion.Orderly blockSetup)
        Ingestion.initial retriedActions ∧
      ∀ state,
        Visits (Ingestion.step blockSetup) Ingestion.initial retriedActions
            state →
          Ingestion.Delivered blockSetup state := by
  have horderly :
      Guarded (Ingestion.step blockSetup) (Ingestion.Orderly blockSetup)
        Ingestion.initial retriedActions := by
    refine ⟨?_, ?_, ?_, ?_, ?_, ?_, ?_, ?_, ?_, trivial⟩
    case refine_9 =>
      intro process hprocess _ fetched event _ houtstanding
      cases hprocess
      simp [ConsumeLoop.outstanding] at houtstanding
    all_goals
      intro process _
      trivial
  exact ⟨horderly, fun _ hvisit =>
    Ingestion.delivered_of_orderly horderly hvisit⟩

/-- The offset is stored right after the hand-over; the process crashes before
the store has answered, and the event is never fetched again. -/
theorem not_delivered_of_crash_after_commit :
    ∃ state,
      exec (Ingestion.step blockSetup) Ingestion.initial
        (handOffActions ++ [.commit true false, .crash, .restart]) =
          some state ∧
        Ingestion.step blockSetup state (.fetch 0) = none ∧
        ¬ Ingestion.Delivered blockSetup state := by
  refine ⟨_, rfl, rfl, ?_⟩
  intro hdelivered
  have hsettled := hdelivered 0 0 blockMessage blockEvent (by decide) rfl rfl
  rcases hsettled with haccepted | ⟨payload, reason, hpayload, hletter⟩
  · exact List.not_mem_nil haccepted
  · exact List.not_mem_nil hletter

end SoulonWallet.Indexer
