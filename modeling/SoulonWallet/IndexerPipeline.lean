import SoulonWallet.EventStoreReplay
import SoulonWallet.GeneratedLinks
import SoulonWallet.KafkaIngestion

/-!
# The indexer with its memory queue

Three goroutines move events from the generator to the file store.  `Run`
generates the events of a tick and publishes them, the goroutine of
`MemoryQueue.Consume` takes them from the buffered channel and hands them
over on an unbuffered one, and `consumeLoop` persists them with retries.  Each
is a program counter here, and an action is one communication, one call of
`Upsert` or one return of a wait.  The maintenance of a file store does
nothing, and so do the dead letters and pauses of a memory queue.

The log file outlives a process, everything else is lost with it.  A crash
between the two appends of an `Upsert` is a call whose second append fails,
followed by the crash.  `emitted` and `handled` record what a process has
generated, and what it has persisted or skipped.
-/

namespace SoulonWallet.Indexer.Pipeline

open LabelledRun

/-- What the process is configured with. -/
structure Settings where
  reorgInterval : Int64
  buffer : ℕ
  options : WorkerOptions

/-- The goroutine of `Run`. -/
inductive Producer where
  | selecting
  | publishing (event : Event) (rest : List Event)
  | returned (err : Option String)

/-- The goroutine of `MemoryQueue.Consume`. -/
inductive Forwarder where
  | receiving
  | holding (event : Event)
  | returned

/-- The goroutine of `consumeLoop`; it returns when the stream is closed or
when persisting an event has failed. -/
inductive Persister where
  | receiving
  | upserting (event : Event) (attempt : ℤ)
  | backingOff (event : Event) (attempt : ℤ)
  | notifying
  | failed (event : Event)
  | returned

structure Life where
  generator : Generator
  producer : Producer
  cancelled : Bool
  stream : List Event
  forwarder : Forwarder
  persister : Persister
  consumerErrors : Option String
  producedTotal : Int64
  consumedTotal : Int64
  errorTotal : Int64
  tickCount : Int64
  emitted : List Event
  handled : List Event

structure Indexing where
  store : FileEventStore
  life : Option Life

inductive Action where
  | tick (times : TickTimes)
  | publish
  | publishDirectly
  | publishCancelled
  | runCancelled
  | runFails
  | cancel
  | take
  | forwardCancelled
  | handOff
  | streamClosed
  | upsert (io : Io)
  | backoffOver
  | backoffCancelled
  | notified (failed : Bool)
  | crash
  | restart

def newLife : Life where
  generator := newGenerator
  producer := .selecting
  cancelled := false
  stream := []
  forwarder := .receiving
  persister := .receiving
  consumerErrors := none
  producedTotal := 0
  consumedTotal := 0
  errorTotal := 0
  tickCount := 0
  emitted := []
  handled := []

def initial : Indexing where
  store := FileEventStore.empty
  life := none

def cancellation : String := "context canceled"

namespace Life

/-- The loop over the events of a tick goes on with the rest. -/
def published (life : Life) (rest : List Event) : Life :=
  match rest with
  | [] =>
      { life with
        producedTotal := life.producedTotal + 1
        tickCount := life.tickCount + 1
        producer := .selecting }
  | event :: later =>
      { life with
        producedTotal := life.producedTotal + 1
        producer := .publishing event later }

def countError (life : Life) : Life :=
  { life with errorTotal := life.errorTotal + 1 }

/-- `persistWithRetry` has returned without an error. -/
def consumed (life : Life) (event : Event) (persister : Persister) : Life :=
  { life with
    consumedTotal := life.consumedTotal + 1
    handled := life.handled ++ [event]
    persister }

/-- `persistWithRetry` has returned an error. -/
def persistFails (life : Life) (event : Event) (err : String) : Life :=
  { life.countError with
    consumerErrors := some err
    persister := .failed event }

/-- One step of `Run`; a tick whose events are never returned is none. -/
def runStep (settings : Settings) (life : Life) : Action → Option Life
  | .tick times =>
      match life.producer with
      | .selecting =>
          match life.generator.generateTickEvents settings.reorgInterval
              times with
          | some (generator, event :: rest) =>
              some { life with
                generator
                emitted := life.emitted ++ event :: rest
                producer := .publishing event rest }
          | _ => none
      | _ => none
  | .publish =>
      match life.producer with
      | .publishing event rest =>
          if life.stream.length < settings.buffer then
            some ({ life with stream := life.stream ++ [event] }.published
              rest)
          else none
      | _ => none
  | .publishDirectly =>
      match life.producer, life.stream, life.forwarder with
      | .publishing event rest, [], .receiving =>
          some ({ life with forwarder := .holding event }.published rest)
      | _, _, _ => none
  | .publishCancelled =>
      match life.producer with
      | .publishing _ _ =>
          if life.cancelled then
            some { life.countError with producer := .returned cancellation }
          else none
      | _ => none
  | .runCancelled =>
      match life.producer with
      | .selecting =>
          if life.cancelled then some { life with producer := .returned none }
          else none
      | _ => none
  | .runFails =>
      match life.producer, life.consumerErrors with
      | .selecting, some err =>
          some { life with
            consumerErrors := none
            producer := .returned (some err) }
      | _, _ => none
  | _ => none

/-- One step of the goroutine of `Consume`. -/
def forwardStep (life : Life) : Action → Option Life
  | .take =>
      match life.forwarder, life.stream with
      | .receiving, event :: rest =>
          some { life with stream := rest, forwarder := .holding event }
      | _, _ => none
  | .forwardCancelled =>
      match life.forwarder with
      | .receiving | .holding _ =>
          if life.cancelled then some { life with forwarder := .returned }
          else none
      | .returned => none
  | .handOff =>
      match life.forwarder, life.persister with
      | .holding event, .receiving =>
          some { life with
            forwarder := .receiving
            persister := .upserting event 1 }
      | _, _ => none
  | _ => none

/-- What `persistWithRetry` and the loop around it do with the result of an
attempt. -/
def attempted (settings : Settings) (life : Life) (event : Event)
    (attempt : ℤ) : Except String Bool → Life
  | .ok true => life.consumed event .notifying
  | .ok false => life.consumed event .receiving
  | .error err =>
      let options := settings.options.withDefaults
      if attempt = options.persistMaxRetries then
        if options.persistFailurePolicy = "skip" then
          life.countError.consumed event .receiving
        else life.countError.persistFails event err
      else { life.countError with persister := .backingOff event attempt }

/-- One step of `consumeLoop` apart from the calls of `Upsert`. -/
def persistStep (life : Life) : Action → Option Life
  | .streamClosed =>
      match life.forwarder, life.persister with
      | .returned, .receiving => some { life with persister := .returned }
      | _, _ => none
  | .backoffOver =>
      match life.persister with
      | .backingOff event attempt =>
          some { life with persister := .upserting event (attempt + 1) }
      | _ => none
  | .backoffCancelled =>
      match life.persister with
      | .backingOff event _ =>
          if life.cancelled then some (life.persistFails event cancellation)
          else none
      | _ => none
  | .notified failed =>
      match life.persister with
      | .notifying =>
          let life := if failed then life.countError else life
          some { life with persister := .receiving }
      | _ => none
  | _ => none

end Life

/-- One action of the process and its surroundings; `none` when it is not
enabled. -/
def Indexing.step (settings : Settings) (state : Indexing)
    (action : Action) : Option Indexing :=
  match action, state.life with
  | .restart, none =>
      some {
        store := FileEventStore.newFileEventStore state.store.log
        life := some newLife }
  | .restart, some _ => none
  | _, none => none
  | .crash, some _ => some { state with life := none }
  | .cancel, some life =>
      some { state with life := some { life with cancelled := true } }
  | .upsert io, some life =>
      match life.persister with
      | .upserting event attempt =>
          let (store, result) := state.store.upsert io event
          some {
            store
            life := some (life.attempted settings event attempt result) }
      | _ => none
  | action, some life =>
      match action with
      | .tick _ | .publish | .publishDirectly | .publishCancelled
      | .runCancelled | .runFails =>
          (life.runStep settings action).map fun next =>
            { state with life := some next }
      | .take | .forwardCancelled | .handOff =>
          (life.forwardStep action).map fun next =>
            { state with life := some next }
      | _ =>
          (life.persistStep action).map fun next =>
            { state with life := some next }

end SoulonWallet.Indexer.Pipeline
