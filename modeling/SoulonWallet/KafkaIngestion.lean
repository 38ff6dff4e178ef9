import Mathlib.Data.Finset.Basic
import Mathlib.Logic.Function.Basic
import SoulonWallet.ChainTx
import SoulonWallet.FileEventStore

/-!
# Ingestion of events from Kafka

Two goroutines move events from the topic to the store.  The consumer of
`KafkaQueue.Consume` fetches a message, decodes it, hands the event over on an
unbuffered channel and commits the offset; the worker of `consumeLoop` takes
the event and persists it with retries, a dead letter and a failure policy.
Both are program counters here, and an action is one blocking call of one of
them together with its outcome, or a step of the outside world: a produced
message, the cancellation of the context, a crash, a restart.

The topic, the committed offsets, the accepted events and the dead letters
outlive a crash; everything in `Process` is lost with it.  A restarted reader
continues each partition at its committed offset.
-/

namespace SoulonWallet.Indexer

def bytes (text : String) : List UInt8 :=
  text.toUTF8.data.toList

structure Message where
  key : List UInt8
  value : List UInt8
  deriving DecidableEq

structure Fetched where
  partition : ℤ
  offset : ℕ
  message : Message
  deriving DecidableEq

structure DeadLetter where
  key : List UInt8
  payload : List UInt8
  reason : String
  deriving DecidableEq

structure WorkerOptions where
  persistMaxRetries : ℤ := 0
  persistFailurePolicy : String := ""
  consumePauseMs : ℤ := 0
  deriving DecidableEq

def WorkerOptions.withDefaults (options : WorkerOptions) : WorkerOptions where
  persistMaxRetries :=
    if options.persistMaxRetries ≤ 0 then 3 else options.persistMaxRetries
  persistFailurePolicy :=
    if options.persistFailurePolicy = "" then "stop"
    else options.persistFailurePolicy
  consumePauseMs :=
    if options.consumePauseMs ≤ 0 then 3000 else options.consumePauseMs

/-- What a process is configured with, and the JSON coding of events. -/
structure Setup where
  unmarshal : List UInt8 → Option Event
  marshal : Event → Option (List UInt8)
  dlqTopic : String
  workerOptions : WorkerOptions

inductive Consumer where
  | fetching
  | rejecting (fetched : Fetched)
  | committingInvalid (fetched : Fetched)
  | decoded (fetched : Fetched) (event : Event)
  | pausing (fetched : Fetched) (event : Event)
  | handingOff (fetched : Fetched) (event : Event)
  | committing (fetched : Fetched)
  | returned

/-- The goroutine of `consumeLoop`; all but `receiving` and `returned` are
inside `persistWithRetry`. -/
inductive ConsumeLoop where
  | receiving
  | upserting (event : Event) (attempt : ℤ)
  | backingOff (event : Event) (attempt : ℤ)
  | deadLettering (event : Event) (lastErr : String)
  | pausingPartition (event : Event) (lastErr : String)
  | returned

structure Process where
  cancelled : Bool
  position : ℤ → ℕ
  dlqWriter : Bool
  pausedPartitions : Finset ℤ
  consumer : Consumer
  worker : ConsumeLoop

structure Ingestion where
  topic : ℤ → List Message
  committed : ℤ → ℕ
  accepted : List Event
  deadLetters : List DeadLetter
  process : Option Process

inductive Action where
  | produce (partition : ℤ) (message : Message)
  | cancel
  | crash
  | restart
  | fetch (partition : ℤ)
  | fetchFails
  | publishInvalid (written : Bool)
  | readPause (elapsed : Bool)
  | pauseOver
  | handOff
  | contextDone
  | commit (stored : Bool) (failed : Bool)
  | streamClosed
  | upsert (result : Except String Bool)
  | backoffOver
  | backoffCancelled
  | publishDeadLetter (written : Bool)
  | pausePartition

namespace Ingestion

def initial : Ingestion where
  topic := fun _ => []
  committed := fun _ => 0
  accepted := []
  deadLetters := []
  process := none

def start (setup : Setup) (state : Ingestion) : Process where
  cancelled := false
  position := state.committed
  dlqWriter := decide (Chain.trimSpace setup.dlqTopic ≠ "")
  pausedPartitions := ∅
  consumer := .fetching
  worker := .receiving

def withProcess (state : Ingestion) (process : Process) : Ingestion :=
  { state with process := some process }

/-- `PublishDeadLetter`, a no-op that reports success without a writer. -/
def writeDeadLetter (state : Ingestion) (dlqWriter written : Bool)
    (letter : DeadLetter) : Ingestion :=
  if dlqWriter && written then
    { state with deadLetters := state.deadLetters ++ [letter] }
  else state

def commitOffset (state : Ingestion) (fetched : Fetched) (stored : Bool) :
    Ingestion :=
  if stored then
    { state with
      committed :=
        Function.update state.committed fetched.partition
          (fetched.offset + 1) }
  else state

end Ingestion

namespace Process

/-- The consumer goroutine returns: its deferred `close` drops the writers. -/
def consumerReturns (process : Process) : Process :=
  { process with consumer := .returned, dlqWriter := false }

def advance (process : Process) (partition : ℤ) (consumer : Consumer) :
    Process :=
  { process with
    position :=
      Function.update process.position partition
        (process.position partition + 1)
    consumer }

end Process

/-- Where the consumer goes with a fetched message: `json.Unmarshal` and the
partition and offset it stamps on the event. -/
def decode (setup : Setup) (fetched : Fetched) : Consumer :=
  match setup.unmarshal fetched.message.value with
  | none => .rejecting fetched
  | some event =>
      .decoded fetched
        { event with
          partition := fetched.partition
          offset := fetched.offset }

/-- One step of the goroutine of `KafkaQueue.Consume`. -/
def consumeStep (setup : Setup) (state : Ingestion) (process : Process) :
    Action → Option Ingestion
  | .fetch partition =>
      match process.consumer with
      | .fetching =>
          match (state.topic partition)[process.position partition]? with
          | none => none
          | some message =>
              some (state.withProcess (process.advance partition
                (decode setup
                  { partition
                    offset := process.position partition
                    message })))
      | _ => none
  | .fetchFails =>
      match process.consumer with
      | .fetching =>
          if process.cancelled then
            some (state.withProcess process.consumerReturns)
          else some state
      | _ => none
  | .publishInvalid written =>
      match process.consumer with
      | .rejecting fetched =>
          some ((state.writeDeadLetter process.dlqWriter written
              { key := fetched.message.key
                payload := fetched.message.value
                reason := "invalid-json" }).withProcess
            { process with consumer := .committingInvalid fetched })
      | _ => none
  | .readPause elapsed =>
      match process.consumer with
      | .decoded fetched event =>
          if event.partition ∈ process.pausedPartitions then
            if elapsed then
              some (state.withProcess
                { process with
                  pausedPartitions :=
                    process.pausedPartitions.erase event.partition
                  consumer := .handingOff fetched event })
            else
              some (state.withProcess
                { process with consumer := .pausing fetched event })
          else
            some (state.withProcess
              { process with consumer := .handingOff fetched event })
      | _ => none
  | .pauseOver =>
      match process.consumer with
      | .pausing fetched event =>
          some (state.withProcess
            { process with consumer := .handingOff fetched event })
      | _ => none
  | .contextDone =>
      match process.consumer with
      | .pausing _ _ | .handingOff _ _ =>
          if process.cancelled then
            some (state.withProcess process.consumerReturns)
          else none
      | _ => none
  | .commit stored failed =>
      match process.consumer with
      | .committingInvalid fetched =>
          some ((state.commitOffset fetched stored).withProcess
            { process with consumer := .fetching })
      | .committing fetched =>
          if failed && process.cancelled then
            some ((state.commitOffset fetched stored).withProcess
              process.consumerReturns)
          else
            some ((state.commitOffset fetched stored).withProcess
              { process with consumer := .fetching })
      | _ => none
  | _ => none

/-- One step of the goroutine of `Worker.consumeLoop`. -/
def workerStep (setup : Setup) (state : Ingestion) (process : Process) :
    Action → Option Ingestion
  | .streamClosed =>
      match process.consumer, process.worker with
      | .returned, .receiving =>
          some (state.withProcess { process with worker := .returned })
      | _, _ => none
  | .upsert result =>
      match process.worker, result with
      | .upserting event _, .ok _ =>
          some ({ state with accepted := state.accepted ++ [event] }.withProcess
            { process with worker := .receiving })
      | .upserting event attempt, .error err =>
          if attempt =
              setup.workerOptions.withDefaults.persistMaxRetries then
            some (state.withProcess
              { process with worker := .deadLettering event err })
          else
            some (state.withProcess
              { process with worker := .backingOff event attempt })
      | _, _ => none
  | .backoffOver =>
      match process.worker with
      | .backingOff event attempt =>
          some (state.withProcess
            { process with worker := .upserting event (attempt + 1) })
      | _ => none
  | .backoffCancelled =>
      match process.worker with
      | .backingOff _ _ =>
          if process.cancelled then
            some (state.withProcess { process with worker := .returned })
          else none
      | _ => none
  | .publishDeadLetter written =>
      match process.worker with
      | .deadLettering event lastErr =>
          let next := { process with worker := .pausingPartition event lastErr }
          match setup.marshal event with
          | none => some (state.withProcess next)
          | some payload =>
              some ((state.writeDeadLetter process.dlqWriter written
                  { key := bytes event.id
                    payload
                    reason := lastErr }).withProcess next)
      | _ => none
  | .pausePartition =>
      match process.worker with
      | .pausingPartition event _ =>
          let options := setup.workerOptions.withDefaults
          some (state.withProcess
            { process with
              pausedPartitions :=
                if 0 < options.consumePauseMs ∧ 0 ≤ event.partition then
                  insert event.partition process.pausedPartitions
                else process.pausedPartitions
              worker :=
                if options.persistFailurePolicy = "skip" then .receiving
                else .returned })
      | _ => none
  | _ => none

/-- The rendezvous of the two goroutines on the unbuffered channel. -/
def handOff (state : Ingestion) (process : Process) : Option Ingestion :=
  match process.consumer, process.worker with
  | .handingOff fetched event, .receiving =>
      some (state.withProcess
        { process with
          consumer := .committing fetched
          worker := .upserting event 1 })
  | _, _ => none

/-- One action of the system; `none` when it is not enabled. -/
def Ingestion.step (setup : Setup) (state : Ingestion) (action : Action) :
    Option Ingestion :=
  match action, state.process with
  | .produce partition message, _ =>
      some { state with
        topic := Function.update state.topic partition
          (state.topic partition ++ [message]) }
  | .restart, none => some (state.withProcess (state.start setup))
  | _, none => none
  | .restart, some _ => none
  | .crash, some _ => some { state with process := none }
  | .cancel, some process =>
      some (state.withProcess { process with cancelled := true })
  | .handOff, some process => handOff state process
  | .streamClosed, some process
  | .upsert _, some process
  | .backoffOver, some process
  | .backoffCancelled, some process
  | .publishDeadLetter _, some process
  | .pausePartition, some process => workerStep setup state process action
  | _, some process => consumeStep setup state process action

end SoulonWallet.Indexer
