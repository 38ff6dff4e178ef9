import SoulonWallet.IndexerPipeline

/-!
# Order of the events in the indexer

What a process has generated is what it has handled, followed by what is in
flight in its three goroutines and in the channel between them.  Every step
moves the border between two of these parts, and only a cancelled process
forgets events, those generated last.
-/

namespace SoulonWallet.Indexer.Pipeline

open LabelledRun

def Producer.events : Producer → List Event
  | .publishing event rest => event :: rest
  | .selecting => []
  | .returned _ => []

def Forwarder.events : Forwarder → List Event
  | .holding event => [event]
  | .receiving => []
  | .returned => []

def Persister.events : Persister → List Event
  | .upserting event _ => [event]
  | .backingOff event _ => [event]
  | .failed event => [event]
  | .receiving => []
  | .notifying => []
  | .returned => []

@[simp] theorem Producer.events_publishing (event : Event) (rest : List Event) :
    (Producer.publishing event rest).events = event :: rest := rfl

@[simp] theorem Producer.events_selecting :
    Producer.selecting.events = [] := rfl

@[simp] theorem Producer.events_returned (err : Option String) :
    (Producer.returned err).events = [] := rfl

@[simp] theorem Forwarder.events_holding (event : Event) :
    (Forwarder.holding event).events = [event] := rfl

@[simp] theorem Forwarder.events_receiving :
    Forwarder.receiving.events = [] := rfl

@[simp] theorem Forwarder.events_returned :
    Forwarder.returned.events = [] := rfl

@[simp] theorem Persister.events_upserting (event : Event) (attempt : ℤ) :
    (Persister.upserting event attempt).events = [event] := rfl

@[simp] theorem Persister.events_backingOff (event : Event) (attempt : ℤ) :
    (Persister.backingOff event attempt).events = [event] := rfl

@[simp] theorem Persister.events_failed (event : Event) :
    (Persister.failed event).events = [event] := rfl

@[simp] theorem Persister.events_receiving :
    Persister.receiving.events = [] := rfl

@[simp] theorem Persister.events_notifying :
    Persister.notifying.events = [] := rfl

@[simp] theorem Persister.events_returned :
    Persister.returned.events = [] := rfl

/-- What can still reach the goroutine of `consumeLoop`. -/
def Life.incoming (life : Life) : List Event :=
  match life.forwarder with
  | .returned => []
  | forwarder => forwarder.events ++ life.stream ++ life.producer.events

def Life.inFlight (life : Life) : List Event :=
  life.persister.events ++ life.incoming

/-- No goroutine that brings new events has returned. -/
def Life.Open (life : Life) : Prop :=
  life.forwarder ≠ .returned ∧ ∀ err, life.producer ≠ .returned err

/-- What a step that does not end an event does to the events of a process. -/
inductive Life.Effect (settings : Settings) (life next : Life) : Prop
  | passes (hgenerator : next.generator = life.generator)
      (hemitted : next.emitted = life.emitted)
      (hhandled : next.handled = life.handled)
      (hinFlight : next.inFlight = life.inFlight)
  | generates {times : TickTimes} {events : List Event}
      (hcall : life.generator.generateTickEvents settings.reorgInterval
        times = some (next.generator, events))
      (hemitted : next.emitted = life.emitted ++ events)
      (hhandled : next.handled = life.handled) (hopen : life.Open)
      (hinFlight : next.inFlight = life.inFlight ++ events)
  | misses {times : TickTimes} {events : List Event}
      (hcall : life.generator.generateTickEvents settings.reorgInterval
        times = some (next.generator, events))
      (hemitted : next.emitted = life.emitted ++ events)
      (hhandled : next.handled = life.handled)
      (hforwarder : life.forwarder = .returned)
      (hinFlight : next.inFlight = life.inFlight)
  | forgets (hgenerator : next.generator = life.generator)
      (hemitted : next.emitted = life.emitted)
      (hhandled : next.handled = life.handled)
      (hinFlight : next.inFlight <+: life.inFlight)
      (hcancelled : next.cancelled = true) (hclosed : ¬ next.Open)

structure Life.Moves (settings : Settings) (life next : Life) : Prop where
  effect : life.Effect settings next
  opens : next.Open → life.Open
  cancelled : life.cancelled = true → next.cancelled = true
  forwarder : next.forwarder = .returned →
    life.forwarder = .returned ∨ next.cancelled = true
  stream : life.stream.length ≤ settings.buffer →
    next.stream.length ≤ settings.buffer

section Steps

variable {settings : Settings} {life next : Life} {action : Action}

theorem Life.inFlight_of_returned (hforwarder : life.forwarder = .returned) :
    life.inFlight = life.persister.events := by
  rw [Life.inFlight, Life.incoming, hforwarder, List.append_nil]

theorem Life.inFlight_eq (hforwarder : life.forwarder ≠ .returned) :
    life.inFlight = life.persister.events ++ (life.forwarder.events ++
      life.stream ++ life.producer.events) := by
  unfold Life.inFlight Life.incoming
  split
  · contradiction
  · rfl

/-- Events that stay in line, under other goroutines than before. -/
theorem Life.Effect.of_line
    (hgenerator : next.generator = life.generator)
    (hemitted : next.emitted = life.emitted)
    (hhandled : next.handled = life.handled)
    (hforwarder : next.forwarder = .returned ↔ life.forwarder = .returned)
    (hpersister : life.forwarder = .returned →
      next.persister.events = life.persister.events)
    (hline : next.persister.events ++ (next.forwarder.events ++ next.stream ++
        next.producer.events) =
      life.persister.events ++ (life.forwarder.events ++ life.stream ++
        life.producer.events)) :
    life.Effect settings next := by
  refine .passes hgenerator hemitted hhandled ?_
  by_cases hreturned : life.forwarder = .returned
  · rw [Life.inFlight_of_returned hreturned,
      Life.inFlight_of_returned (hforwarder.mpr hreturned),
      hpersister hreturned]
  · rw [Life.inFlight_eq hreturned,
      Life.inFlight_eq (fun hnext => hreturned (hforwarder.mp hnext)), hline]

@[simp] theorem Life.published_generator (life : Life) (rest : List Event) :
    (life.published rest).generator = life.generator := by
  cases rest <;> rfl

@[simp] theorem Life.published_emitted (life : Life) (rest : List Event) :
    (life.published rest).emitted = life.emitted := by
  cases rest <;> rfl

@[simp] theorem Life.published_handled (life : Life) (rest : List Event) :
    (life.published rest).handled = life.handled := by
  cases rest <;> rfl

@[simp] theorem Life.published_forwarder (life : Life) (rest : List Event) :
    (life.published rest).forwarder = life.forwarder := by
  cases rest <;> rfl

@[simp] theorem Life.published_persister (life : Life) (rest : List Event) :
    (life.published rest).persister = life.persister := by
  cases rest <;> rfl

@[simp] theorem Life.published_stream (life : Life) (rest : List Event) :
    (life.published rest).stream = life.stream := by
  cases rest <;> rfl

@[simp] theorem Life.published_cancelled (life : Life) (rest : List Event) :
    (life.published rest).cancelled = life.cancelled := by
  cases rest <;> rfl

@[simp] theorem Life.published_events (life : Life) (rest : List Event) :
    (life.published rest).producer.events = rest := by
  cases rest <;> rfl

theorem moves_of_tick
    {times : TickTimes} (hstep : life.runStep settings (.tick times) =
      some next) : life.Moves settings next := by
  cases hproducer : life.producer with
  | publishing event rest => simp [Life.runStep, hproducer] at hstep
  | returned err => simp [Life.runStep, hproducer] at hstep
  | selecting =>
      rcases hcall : life.generator.generateTickEvents settings.reorgInterval
        times with _ | ⟨generator, _ | ⟨event, rest⟩⟩
      · simp [Life.runStep, hproducer, hcall] at hstep
      · simp [Life.runStep, hproducer, hcall] at hstep
      · simp only [Life.runStep, hproducer, hcall, Option.some.injEq] at hstep
        subst hstep
        refine ⟨?_, ?_, id, Or.inl, id⟩
        · by_cases hforwarder : life.forwarder = .returned
          · refine .misses hcall rfl rfl hforwarder ?_
            rw [Life.inFlight_of_returned hforwarder]
            exact Life.inFlight_of_returned hforwarder
          · refine .generates hcall rfl rfl ⟨hforwarder, by simp [hproducer]⟩ ?_
            rw [Life.inFlight_eq hforwarder, Life.inFlight_eq]
            · simp [hproducer]
            · exact hforwarder
        · rintro ⟨hforwarder, -⟩
          exact ⟨hforwarder, by simp [hproducer]⟩

theorem moves_of_publish
    (hstep : life.runStep settings .publish = some next) :
    life.Moves settings next := by
  cases hproducer : life.producer with
  | selecting => simp [Life.runStep, hproducer] at hstep
  | returned err => simp [Life.runStep, hproducer] at hstep
  | publishing event rest =>
      simp only [Life.runStep, hproducer] at hstep
      split_ifs at hstep with hroom
      obtain rfl := Option.some.inj hstep
      refine ⟨.of_line (by simp) (by simp) (by simp) (by simp)
        (fun _ => by simp) ?_, ?_, by simp, by simp +contextual, fun _ => ?_⟩
      · simp [hproducer]
      · rintro ⟨hforwarder, -⟩
        exact ⟨by simpa using hforwarder, by simp [hproducer]⟩
      · rw [Life.published_stream, List.length_append]
        exact hroom

theorem moves_of_publishDirectly
    (hstep : life.runStep settings .publishDirectly = some next) :
    life.Moves settings next := by
  simp only [Life.runStep] at hstep
  split at hstep
  next event rest hproducer hempty hreceiving =>
    obtain rfl := Option.some.inj hstep
    refine ⟨.of_line (by simp) (by simp) (by simp) (by simp [hreceiving])
      (fun _ => by simp) ?_,
      fun _ => ⟨by simp [hreceiving], by simp [hproducer]⟩,
      by simp, by simp, by simp⟩
    simp [hproducer, hempty, hreceiving]
  next => cases hstep

/-- The goroutine of `Run` returns, with or without unpublished events. -/
theorem moves_of_producerReturns
    {err : Option String} {errorTotal : Int64}
    {consumerErrors : Option String}
    (hdrops : life.producer.events = [] ∨ life.cancelled = true) :
    life.Moves settings { life with
      producer := .returned err
      errorTotal
      consumerErrors } := by
  have hclosed : ¬ Life.Open { life with
      producer := .returned err
      errorTotal
      consumerErrors } := fun hopen => hopen.2 err rfl
  refine ⟨?_, fun hopen => absurd hopen hclosed, id, Or.inl, id⟩
  rcases hdrops with hnone | hcancelled
  · refine .of_line rfl rfl rfl Iff.rfl (fun _ => rfl) ?_
    simp [hnone]
  · refine .forgets rfl rfl rfl ?_ hcancelled hclosed
    by_cases hforwarder : life.forwarder = .returned
    · rw [Life.inFlight_of_returned hforwarder]
      rw [Life.inFlight_of_returned]
      · exact hforwarder
    · rw [Life.inFlight_eq hforwarder, Life.inFlight_eq]
      · exact ⟨life.producer.events, by simp⟩
      · exact hforwarder

theorem moves_of_runStep (hstep : life.runStep settings action = some next) :
    life.Moves settings next := by
  cases action with
  | tick times => exact moves_of_tick hstep
  | publish => exact moves_of_publish hstep
  | publishDirectly => exact moves_of_publishDirectly hstep
  | publishCancelled =>
      simp only [Life.runStep] at hstep
      split at hstep
      · split_ifs at hstep with hcancelled
        obtain rfl := Option.some.inj hstep
        exact moves_of_producerReturns (Or.inr hcancelled)
      · cases hstep
  | runCancelled =>
      simp only [Life.runStep] at hstep
      split at hstep
      · split_ifs at hstep with hcancelled
        obtain rfl := Option.some.inj hstep
        exact moves_of_producerReturns (Or.inr hcancelled)
      · cases hstep
  | runFails =>
      simp only [Life.runStep] at hstep
      split at hstep
      next err hproducer herr =>
        obtain rfl := Option.some.inj hstep
        exact moves_of_producerReturns (Or.inl (by rw [hproducer]; rfl))
      next => cases hstep
  | _ => cases hstep

/-! ## The other goroutines -/

/-- The goroutine of `Consume` returns, and closes the stream. -/
theorem moves_of_forwarderReturns
    (hcancelled : life.cancelled = true)
    (hforwarder : life.forwarder ≠ .returned) :
    life.Moves settings { life with forwarder := .returned } := by
  have hclosed : ¬ Life.Open { life with forwarder := .returned } :=
    fun hopen => hopen.1 rfl
  refine ⟨.forgets rfl rfl rfl ?_ hcancelled hclosed,
    fun hopen => absurd hopen hclosed, id, fun _ => Or.inr hcancelled, id⟩
  rw [Life.inFlight_eq hforwarder, Life.inFlight_of_returned]
  · exact List.prefix_append _ _
  · rfl

theorem moves_of_forwardStep (hstep : life.forwardStep action = some next) :
    life.Moves settings next := by
  cases action with
  | take =>
      simp only [Life.forwardStep] at hstep
      split at hstep
      next event rest hforwarder hstream =>
        obtain rfl := Option.some.inj hstep
        refine ⟨.of_line rfl rfl rfl (by simp [hforwarder]) (fun _ => rfl) ?_,
          fun hopen => ⟨by simp [hforwarder], hopen.2⟩, id, by simp, ?_⟩
        · simp [hforwarder, hstream]
        · rw [hstream, List.length_cons]
          exact Nat.le_of_succ_le
      next => cases hstep
  | forwardCancelled =>
      simp only [Life.forwardStep] at hstep
      split at hstep
      next hforwarder =>
        split_ifs at hstep with hcancelled
        obtain rfl := Option.some.inj hstep
        exact moves_of_forwarderReturns hcancelled (by simp [hforwarder])
      next event hforwarder =>
        split_ifs at hstep with hcancelled
        obtain rfl := Option.some.inj hstep
        exact moves_of_forwarderReturns hcancelled (by simp [hforwarder])
      next => cases hstep
  | handOff =>
      simp only [Life.forwardStep] at hstep
      split at hstep
      next event hforwarder hpersister =>
        obtain rfl := Option.some.inj hstep
        refine ⟨.of_line rfl rfl rfl (by simp [hforwarder])
          (fun hreturned => by simp [hforwarder] at hreturned) ?_,
          fun hopen => ⟨by simp [hforwarder], hopen.2⟩, id, by simp, id⟩
        simp [hforwarder, hpersister]
      next => cases hstep
  | _ => cases hstep

/-- The goroutine of `consumeLoop` goes on with the event that it has. -/
theorem moves_of_persister
    {persister : Persister} {errorTotal : Int64}
    {consumerErrors : Option String}
    (hevents : persister.events = life.persister.events) :
    life.Moves settings { life with
      persister
      errorTotal
      consumerErrors } :=
  ⟨.of_line rfl rfl rfl Iff.rfl (fun _ => hevents) (by simp [hevents]), id, id,
    Or.inl, id⟩

theorem moves_of_persistStep (hstep : life.persistStep action = some next) :
    life.Moves settings next := by
  cases action with
  | streamClosed =>
      simp only [Life.persistStep] at hstep
      split at hstep
      next hforwarder hpersister =>
        obtain rfl := Option.some.inj hstep
        exact moves_of_persister (by rw [hpersister]; rfl)
      next => cases hstep
  | backoffOver =>
      simp only [Life.persistStep] at hstep
      split at hstep
      next event attempt hpersister =>
        obtain rfl := Option.some.inj hstep
        exact moves_of_persister (by rw [hpersister]; rfl)
      next => cases hstep
  | backoffCancelled =>
      simp only [Life.persistStep] at hstep
      split at hstep
      next event attempt hpersister =>
        split_ifs at hstep with hcancelled
        obtain rfl := Option.some.inj hstep
        exact moves_of_persister (by rw [hpersister]; rfl)
      next => cases hstep
  | notified failed =>
      simp only [Life.persistStep] at hstep
      split at hstep
      next hpersister =>
        obtain rfl := Option.some.inj hstep
        cases failed with
        | false => exact moves_of_persister (by rw [hpersister]; rfl)
        | true => exact moves_of_persister (by rw [hpersister]; rfl)
      next => cases hstep
  | _ => cases hstep

/-- The first event in flight has been persisted or skipped. -/
theorem inFlight_of_consumed
    {event : Event} {persister : Persister} {errorTotal : Int64}
    (hpersister : life.persister.events = [event])
    (hdone : persister.events = []) :
    life.inFlight = event ::
      (Life.consumed { life with errorTotal } event persister).inFlight := by
  have hincoming : (Life.consumed { life with errorTotal } event
      persister).incoming = life.incoming := rfl
  have hevents : (Life.consumed { life with errorTotal } event
      persister).persister.events = [] := hdone
  rw [Life.inFlight, Life.inFlight, hpersister, hincoming, hevents]
  rfl

/-- An attempt ends its event, with a success or a skip, or goes on with it. -/
theorem attempted_cases
    {event : Event} {attempt : ℤ}
    (hpersister : life.persister = .upserting event attempt)
    (result : Except String Bool) :
    (∃ persister errorTotal, persister.events = [] ∧
      life.attempted settings event attempt result =
        Life.consumed { life with errorTotal } event persister) ∨
      life.Moves settings (life.attempted settings event attempt result) := by
  have hevents : life.persister.events = [event] := by rw [hpersister]; rfl
  unfold Life.attempted
  split
  · exact Or.inl ⟨.notifying, life.errorTotal, rfl, rfl⟩
  · exact Or.inl ⟨.receiving, life.errorTotal, rfl, rfl⟩
  · simp only
    split_ifs with hlast hskip
    · exact Or.inl ⟨.receiving, life.errorTotal + 1, rfl, rfl⟩
    · exact Or.inr (moves_of_persister hevents.symm)
    · exact Or.inr (moves_of_persister hevents.symm)

end Steps

/-! ## Steps of the system -/

/-- The ways in which the system goes on: a new process on the log, the end of
one, an attempt to persist an event, and what leaves the store alone. -/
inductive Indexing.Steps (settings : Settings) (state : Indexing) :
    Action → Indexing → Prop
  | restart (hlife : state.life = none) :
      Steps settings state .restart {
        store := FileEventStore.newFileEventStore state.store.log
        life := some newLife }
  | crash : Steps settings state .crash { state with life := none }
  | upsert {life : Life} {event : Event} {attempt : ℤ} {io : Io}
      (hlife : state.life = some life)
      (hpersister : life.persister = .upserting event attempt) :
      Steps settings state (.upsert io) {
        store := (state.store.upsert io event).1
        life := some (life.attempted settings event attempt
          (state.store.upsert io event).2) }
  | moves {life next : Life} {action : Action}
      (hlife : state.life = some life) (hmoves : life.Moves settings next) :
      Steps settings state action { state with life := some next }

theorem Indexing.steps_of_step
    {settings : Settings} {state next : Indexing} {action : Action}
    (hstep : state.step settings action = some next) :
    state.Steps settings action next := by
  rcases hlife : state.life with _ | life
  · cases action with
    | restart =>
        simp only [Indexing.step, hlife, Option.some.injEq] at hstep
        exact hstep ▸ .restart hlife
    | _ => simp [Indexing.step, hlife] at hstep
  · cases action with
    | restart => simp [Indexing.step, hlife] at hstep
    | crash =>
        simp only [Indexing.step, hlife, Option.some.injEq] at hstep
        exact hstep ▸ .crash
    | cancel =>
        simp only [Indexing.step, hlife, Option.some.injEq] at hstep
        subst hstep
        refine .moves hlife ⟨.of_line rfl rfl rfl Iff.rfl (fun _ => rfl) rfl,
          id, fun _ => rfl, Or.inl, id⟩
    | upsert io =>
        simp only [Indexing.step, hlife] at hstep
        split at hstep
        next event attempt hpersister =>
          obtain rfl := Option.some.inj hstep
          exact .upsert hlife hpersister
        next => cases hstep
    | tick | publish | publishDirectly | publishCancelled | runCancelled
    | runFails =>
        simp only [Indexing.step, hlife] at hstep
        obtain ⟨after, hafter, rfl⟩ := Option.map_eq_some_iff.mp hstep
        exact .moves hlife (moves_of_runStep hafter)
    | take | forwardCancelled | handOff =>
        simp only [Indexing.step, hlife] at hstep
        obtain ⟨after, hafter, rfl⟩ := Option.map_eq_some_iff.mp hstep
        exact .moves hlife (moves_of_forwardStep hafter)
    | streamClosed | backoffOver | backoffCancelled | notified =>
        simp only [Indexing.step, hlife] at hstep
        obtain ⟨after, hafter, rfl⟩ := Option.map_eq_some_iff.mp hstep
        exact .moves hlife (moves_of_persistStep hafter)

/-! ## Runs -/

/-- What holds of the events of a process after every step. -/
structure Life.InOrder (settings : Settings) (life : Life) : Prop where
  generated : ∃ calls times,
    emittedAfter settings.reorgInterval times calls =
      some (life.generator, life.emitted)
  split : ∃ lost, life.emitted = life.handled ++ life.inFlight ++ lost ∧
    (lost ≠ [] → life.cancelled = true ∧ ¬ life.Open)
  closed : life.forwarder = .returned → life.cancelled = true
  stream : life.stream.length ≤ settings.buffer

theorem newLife_inOrder (settings : Settings) : newLife.InOrder settings where
  generated := ⟨0, fun _ => ⟨0, 0⟩, rfl⟩
  split := ⟨[], rfl, by simp⟩
  closed := by simp [newLife]
  stream := Nat.zero_le _

theorem emittedAfter_congr
    {reorgInterval : Int64} {times times' : ℕ → TickTimes} {calls : ℕ}
    (htimes : ∀ call < calls, times call = times' call) :
    emittedAfter reorgInterval times calls =
      emittedAfter reorgInterval times' calls := by
  induction calls with
  | zero => rfl
  | succ calls ih =>
      rw [emittedAfter, emittedAfter, ih fun call hcall => htimes call (by omega),
        htimes calls (by omega)]

/-- One more call, at times of its own. -/
theorem emittedAfter_call
    {reorgInterval : Int64} {times : ℕ → TickTimes} {calls : ℕ}
    {generator next : Generator} {emitted events : List Event}
    {callTimes : TickTimes}
    (hafter : emittedAfter reorgInterval times calls =
      some (generator, emitted))
    (hcall : generator.generateTickEvents reorgInterval callTimes =
      some (next, events)) :
    ∃ calls times, emittedAfter reorgInterval times calls =
      some (next, emitted ++ events) := by
  refine ⟨calls + 1, Function.update times calls callTimes,
    emittedAfter_succ.mpr ⟨generator, emitted, events, ?_, ?_, rfl⟩⟩
  · rw [← hafter]
    exact emittedAfter_congr fun call hlow =>
      Function.update_of_ne hlow.ne _ _
  · rw [Function.update_self]
    exact hcall

theorem Life.InOrder.moves
    {settings : Settings} {life next : Life}
    (hordered : life.InOrder settings) (hmoves : life.Moves settings next) :
    next.InOrder settings := by
  obtain ⟨heffect, hopens, hcancelled, hforwarder, hstream⟩ := hmoves
  obtain ⟨⟨calls, times, hgenerated⟩, ⟨lost, hsplit, hlost⟩, hclosed,
    hbuffer⟩ := hordered
  have hstill : lost ≠ [] → next.cancelled = true ∧ ¬ next.Open := by
    intro hsome
    obtain ⟨hdone, hnotOpen⟩ := hlost hsome
    exact ⟨hcancelled hdone, fun hopen => hnotOpen (hopens hopen)⟩
  have hnextClosed : next.forwarder = .returned → next.cancelled = true :=
    fun hreturned => (hforwarder hreturned).elim
      (fun hbefore => hcancelled (hclosed hbefore)) id
  refine ⟨?_, ?_, hnextClosed, hstream hbuffer⟩
  · cases heffect with
    | generates hcall hemitted | misses hcall hemitted =>
        rw [hemitted]
        exact emittedAfter_call hgenerated hcall
    | passes hgenerator hemitted | forgets hgenerator hemitted =>
        exact ⟨calls, times, by rw [hgenerator, hemitted]; exact hgenerated⟩
  · cases heffect with
    | passes _ hemitted hhandled hinFlight =>
        exact ⟨lost, by rw [hemitted, hhandled, hinFlight, hsplit], hstill⟩
    | generates _ hemitted hhandled hopen hinFlight =>
        -- an open process has lost nothing yet
        have hnone : lost = [] := by
          by_contra hsome
          exact (hlost hsome).2 hopen
        exact ⟨[], by simp [hemitted, hhandled, hinFlight, hsplit, hnone],
          by simp⟩
    | @misses _ events _ hemitted hhandled hreturned hinFlight =>
        refine ⟨lost ++ events, ?_, fun _ => ?_⟩
        · rw [hemitted, hhandled, hinFlight, hsplit, List.append_assoc _ lost]
        · exact ⟨hcancelled (hclosed hreturned),
            fun hopen => (hopens hopen).1 hreturned⟩
    | forgets _ hemitted hhandled hinFlight hdone hnotOpen =>
        obtain ⟨forgotten, hforgotten⟩ := hinFlight
        refine ⟨forgotten ++ lost, ?_, fun _ => ⟨hdone, hnotOpen⟩⟩
        rw [hemitted, hhandled, hsplit, ← hforgotten]
        simp only [List.append_assoc]

theorem Life.InOrder.consumed
    {settings : Settings} {life : Life} {event : Event}
    {persister : Persister} {errorTotal : Int64}
    (hordered : life.InOrder settings)
    (hpersister : life.persister.events = [event])
    (hdone : persister.events = []) :
    (Life.consumed { life with errorTotal } event persister).InOrder
      settings := by
  obtain ⟨hgenerated, ⟨lost, hsplit, hlost⟩, hclosed, hbuffer⟩ := hordered
  refine ⟨hgenerated, ⟨lost, ?_, hlost⟩, hclosed, hbuffer⟩
  have hfirst : life.inFlight = event ::
      (Life.consumed { life with errorTotal } event persister).inFlight :=
    inFlight_of_consumed hpersister hdone
  have hwhole : life.handled ++ life.inFlight ++ lost =
      life.handled ++ [event] ++
        (Life.consumed { life with errorTotal } event persister).inFlight ++
          lost := by
    rw [hfirst]
    simp
  exact hsplit.trans hwhole

/-- The process of a state, if there is one, has its events in order. -/
def Indexing.InOrder (settings : Settings) (state : Indexing) : Prop :=
  ∀ life, state.life = some life → life.InOrder settings

theorem Indexing.InOrder.steps
    {settings : Settings} {state next : Indexing} {action : Action}
    (hordered : state.InOrder settings)
    (hsteps : state.Steps settings action next) : next.InOrder settings := by
  intro life hlife
  cases hsteps with
  | restart =>
      obtain rfl := Option.some.inj hlife
      exact newLife_inOrder settings
  | crash => cases hlife
  | upsert hbefore hpersister =>
      obtain rfl := Option.some.inj hlife
      rcases attempted_cases hpersister _ with
        ⟨persister, errorTotal, hdone, hresult⟩ | hmoves
      · rw [hresult]
        exact (hordered _ hbefore).consumed (by rw [hpersister]; rfl) hdone
      · exact (hordered _ hbefore).moves hmoves
  | moves hbefore hmoves =>
      obtain rfl := Option.some.inj hlife
      exact (hordered _ hbefore).moves hmoves

/-- In every run the events of a process are those of its generator.  They
have been handled in the order in which they were generated, up to those that
are in flight; the others are lost, which happens to a cancelled process
only.  The channel never holds more than it is made for. -/
theorem events_in_order
    (settings : Settings) (actions : List Action)
    {state : Indexing} {life : Life}
    (hrun : exec (Indexing.step settings) initial actions = some state)
    (hlife : state.life = some life) :
    (∃ calls times, emittedAfter settings.reorgInterval times calls =
        some (life.generator, life.emitted)) ∧
      life.handled ++ life.inFlight <+: life.emitted ∧
      (life.cancelled = false →
        life.emitted = life.handled ++ life.inFlight) ∧
      life.stream.length ≤ settings.buffer := by
  have hinit : initial.InOrder settings := by
    intro life hnone
    cases hnone
  have hordered := invariant_of_step (Indexing.InOrder settings)
    (fun _ _ _ hbefore hstep =>
      hbefore.steps (Indexing.steps_of_step hstep)) hinit hrun
  obtain ⟨hgenerated, ⟨lost, hsplit, hlost⟩, -, hstream⟩ :=
    hordered life hlife
  refine ⟨hgenerated, ⟨lost, hsplit.symm⟩, fun hrunning => ?_, hstream⟩
  have hnone : lost = [] := by
    by_contra hsome
    rw [(hlost hsome).1] at hrunning
    cases hrunning
  rw [hsplit, hnone, List.append_nil]

def smallSettings : Settings where
  reorgInterval := 3
  buffer := 1
  options := {}

/-- Two ticks; the first event is persisted, the second one waits. -/
def twoTicks : List Action :=
  [.restart, .tick ⟨1, 1⟩, .publish, .take, .tick ⟨2, 2⟩, .publish, .handOff,
    .upsert ⟨3, .ok 3, .ok 3⟩]

theorem events_in_order_twoTicks :
    ∃ state life, exec (Indexing.step smallSettings) initial twoTicks =
        some state ∧ state.life = some life ∧
      life.emitted = life.handled ++ life.inFlight ∧
      life.handled.length = 1 ∧ life.inFlight.length = 1 := by
  refine ⟨_, _, rfl, rfl, ?_, rfl, rfl⟩
  exact (events_in_order smallSettings twoTicks rfl rfl).2.2.1 rfl

end SoulonWallet.Indexer.Pipeline
