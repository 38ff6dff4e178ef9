import SoulonWallet.SignatureChallenge

/-!
# The notification stream of the API

`pushNotification` appends to the buffer and copies the list of subscribers
under the lock, and then sends to the copied channels without it.
`handleNotificationStream` subscribes, writes the latest notifications of the
buffer, and then writes what it receives on its channel.  Any number of
streams and pushes interleave at their sections and channel operations.

Pushes are numbered in the order of their sections; an entry of a buffer or a
channel carries the number of the push it comes from, so that two pushes of
one message are told apart.
-/

namespace SoulonWallet.Api

open LabelledRun
open Chain (trimSpace)

/-! ## The model -/

/-- `strconv.Atoi` on 64 bits. -/
def atoi (text : String) : Option ℤ :=
  let digits (chars : List Char) : Option ℤ :=
    if chars ≠ [] ∧ chars.all Char.isDigit then
      some (chars.foldl (fun value c => value * 10 + (c.toNat - 48)) (0 : ℤ))
    else none
  let value :=
    match text.toList with
    | '-' :: chars => (digits chars).map (- ·)
    | '+' :: chars => digits chars
    | chars => digits chars
  value.filter fun parsed => -2 ^ 63 ≤ parsed ∧ parsed < 2 ^ 63

structure StreamRequest where
  method : String
  queryToken : String
  authorization : String
  flusher : Bool
  initialLimit : String

/-- The checks of `handleNotificationStream` before it subscribes. -/
def admitStream (notifyToken : String) (request : StreamRequest) :
    Except ApiError Unit :=
  if request.method ≠ "GET" then .error methodNotAllowed
  else if notifyToken ≠ "" ∧
      trimSpace request.queryToken ≠ notifyToken ∧
      trimSpace request.authorization ≠ "Bearer " ++ notifyToken then
    .error (writeApiError 401 .unauthorized "unauthorized" false)
  else if ¬ request.flusher then
    .error (writeApiError 500 .internal "streaming unsupported" false)
  else .ok ()

def parseInitialLimit (raw : String) : Except ApiError ℤ :=
  if trimSpace raw = "" then .ok 20
  else
    match atoi (trimSpace raw) with
    | some parsed =>
        if parsed ≤ 0 ∨ 200 < parsed then
          .error (badRequest "invalid initialLimit")
        else .ok parsed
    | none => .error (badRequest "invalid initialLimit")

structure Entry (Message : Type) where
  push : ℕ
  message : Message

inductive Phase where
  | subscribed
  | streaming
  | closed (error : Option ApiError)
  deriving DecidableEq

/-- One run of the handler.  The pushes numbered from `since` on come after
its `addSubscriber`. -/
structure Stream (Message : Type) where
  initialLimit : String
  since : ℕ
  phase : Phase
  channel : List (Entry Message)
  initialItems : List (Entry Message)
  received : List (Entry Message)

def Stream.written {Message : Type} (stream : Stream Message) : List ℕ :=
  (stream.initialItems ++ stream.received).map Entry.push

/-- A push after its section, with the channels that it has still to send
to. -/
structure Sending (Message : Type) where
  message : Message
  remaining : Finset ℕ

structure Hub (Message : Type) where
  notifyToken : String
  notifyCapacity : ℕ
  notifications : List (Entry Message)
  subscribers : Finset ℕ
  subscriberSeq : ℕ
  streams : KeyedMap ℕ (Stream Message)
  pushes : KeyedMap ℕ (Sending Message)
  nextPush : ℕ

inductive StreamTurn (Message : Type) where
  | subscribe (request : StreamRequest)
  | snapshot (id : ℕ)
  | receive (id : ℕ)
  | leave (id : ℕ)
  | push (message : Message)
  | send (push id : ℕ)

def channelCapacity : ℕ := 16

namespace Hub

variable {Message : Type}

def initial (notifyToken : String) (notifyCapacity : ℤ) : Hub Message where
  notifyToken := trimSpace notifyToken
  notifyCapacity :=
    if notifyCapacity ≤ 0 then 200 else notifyCapacity.toNat
  notifications := []
  subscribers := ∅
  subscriberSeq := 0
  streams := ∅
  pushes := ∅
  nextPush := 0

def withStream (hub : Hub Message) (id : ℕ) (stream : Stream Message) :
    Hub Message :=
  { hub with streams := hub.streams.insert id stream }

def addSubscriber (hub : Hub Message) (initialLimit : String) :
    Hub Message :=
  let id := hub.subscriberSeq + 1
  { hub with
    subscriberSeq := id
    subscribers := insert id hub.subscribers }.withStream id
      { initialLimit := initialLimit
        since := hub.nextPush
        phase := .subscribed
        channel := []
        initialItems := []
        received := [] }

def removeSubscriber (hub : Hub Message) (id : ℕ) (stream : Stream Message)
    (error : Option ApiError) : Hub Message :=
  { hub with
    subscribers := hub.subscribers.erase id }.withStream id
      { stream with phase := .closed error }

def snapshotLatestNotifications (buffer : List (Entry Message)) (limit : ℤ) :
    List (Entry Message) :=
  let limit : ℤ := if limit ≤ 0 then 1 else limit
  let limit : ℤ := if buffer.length < limit then buffer.length else limit
  (buffer.drop (buffer.length - limit).toNat).reverse

def pushNotification (hub : Hub Message) (message : Message) : Hub Message :=
  let appended := hub.notifications ++ [Entry.mk hub.nextPush message]
  { hub with
    notifications := appended.drop (appended.length - hub.notifyCapacity)
    pushes := hub.pushes.insert hub.nextPush
      (Sending.mk message hub.subscribers)
    nextPush := hub.nextPush + 1 }

/-- One send of a push: it is dropped when the channel is full. -/
def send (hub : Hub Message) (push : ℕ) (sending : Sending Message)
    (id : ℕ) (stream : Stream Message) : Hub Message :=
  { hub with
    pushes := hub.pushes.insert push
      { sending with remaining := sending.remaining.erase id } }.withStream id
      (if stream.channel.length < channelCapacity then
        { stream with
          channel := stream.channel ++ [Entry.mk push sending.message] }
      else stream)

def step (hub : Hub Message) : StreamTurn Message → Option (Hub Message)
  | .subscribe request =>
      match admitStream hub.notifyToken request with
      | .error _ => some hub
      | .ok () => some (hub.addSubscriber request.initialLimit)
  | .snapshot id =>
      match hub.streams.lookup id with
      | none => none
      | some stream =>
          if stream.phase = .subscribed then
            match parseInitialLimit stream.initialLimit with
            | .error payload =>
                some (hub.removeSubscriber id stream (some payload))
            | .ok limit =>
                some (hub.withStream id
                  { stream with
                    phase := .streaming
                    initialItems := snapshotLatestNotifications
                      hub.notifications limit })
          else none
  | .receive id =>
      match hub.streams.lookup id with
      | none => none
      | some stream =>
          match stream.channel with
          | [] => none
          | entry :: rest =>
              if stream.phase = .streaming then
                some (hub.withStream id
                  { stream with
                    channel := rest
                    received := stream.received ++ [entry] })
              else none
  | .leave id =>
      match hub.streams.lookup id with
      | none => none
      | some stream =>
          if stream.phase = .streaming then
            some (hub.removeSubscriber id stream none)
          else none
  | .push message => some (hub.pushNotification message)
  | .send push id =>
      match hub.pushes.lookup push, hub.streams.lookup id with
      | some sending, some stream =>
          if id ∈ sending.remaining then
            some (hub.send push sending id stream)
          else none
      | _, _ => none

/-- What a turn does to the hub. -/
inductive Moves (hub : Hub Message) : StreamTurn Message → Hub Message → Prop
    where
  | refuse {request} : Moves hub (.subscribe request) hub
  | subscribe {request} :
      Moves hub (.subscribe request) (hub.addSubscriber request.initialLimit)
  | reject {id stream payload}
      (hstream : hub.streams.lookup id = some stream)
      (hlimit : parseInitialLimit stream.initialLimit = .error payload) :
      Moves hub (.snapshot id)
        (hub.removeSubscriber id stream (some payload))
  | snapshot {id stream limit}
      (hstream : hub.streams.lookup id = some stream)
      (hphase : stream.phase = .subscribed)
      (hlimit : parseInitialLimit stream.initialLimit = .ok limit) :
      Moves hub (.snapshot id)
        (hub.withStream id
          { stream with
            phase := .streaming
            initialItems := snapshotLatestNotifications hub.notifications
              limit })
  | receive {id stream entry rest}
      (hstream : hub.streams.lookup id = some stream)
      (hphase : stream.phase = .streaming)
      (hchannel : stream.channel = entry :: rest) :
      Moves hub (.receive id)
        (hub.withStream id
          { stream with
            channel := rest
            received := stream.received ++ [entry] })
  | leave {id stream}
      (hstream : hub.streams.lookup id = some stream) :
      Moves hub (.leave id) (hub.removeSubscriber id stream none)
  | push {message} : Moves hub (.push message) (hub.pushNotification message)
  | send {push id sending stream}
      (hsending : hub.pushes.lookup push = some sending)
      (hstream : hub.streams.lookup id = some stream)
      (hmem : id ∈ sending.remaining) :
      Moves hub (.send push id) (hub.send push sending id stream)

theorem moves_of_step
    {hub next : Hub Message} {turn : StreamTurn Message}
    (hstep : hub.step turn = some next) : hub.Moves turn next := by
  cases turn with
  | subscribe request =>
      simp only [step] at hstep
      split at hstep
      · obtain rfl := Option.some.inj hstep
        exact .refuse
      · obtain rfl := Option.some.inj hstep
        exact .subscribe
  | snapshot id =>
      simp only [step] at hstep
      split at hstep
      next => cases hstep
      next stream hstream =>
        split_ifs at hstep with hphase
        split at hstep
        next payload hlimit =>
          obtain rfl := Option.some.inj hstep
          exact .reject hstream hlimit
        next limit hlimit =>
          obtain rfl := Option.some.inj hstep
          exact .snapshot hstream hphase hlimit
  | receive id =>
      simp only [step] at hstep
      split at hstep
      next => cases hstep
      next stream hstream =>
        split at hstep
        next => cases hstep
        next entry rest hchannel =>
          split_ifs at hstep with hphase
          obtain rfl := Option.some.inj hstep
          exact .receive hstream hphase hchannel
  | leave id =>
      simp only [step] at hstep
      split at hstep
      next => cases hstep
      next stream hstream =>
        split_ifs at hstep
        obtain rfl := Option.some.inj hstep
        exact .leave hstream
  | push message =>
      obtain rfl := Option.some.inj hstep
      exact .push
  | send push id =>
      simp only [step] at hstep
      split at hstep
      next sending stream hsending hstream =>
        split_ifs at hstep with hmem
        obtain rfl := Option.some.inj hstep
        exact .send hsending hstream hmem
      next => cases hstep

/-! ## The numbers of the pushes -/

variable {hub next : Hub Message} {turn : StreamTurn Message}

/-- The buffer ends with the last push, and nothing carries a number that has
not been given out. -/
structure Ordered (hub : Hub Message) : Prop where
  capacity_pos : 0 < hub.notifyCapacity
  buffer_lt : ∀ entry ∈ hub.notifications, entry.push < hub.nextPush
  buffer_last : 0 < hub.nextPush →
    ∃ init last, hub.notifications = init ++ [last] ∧
      last.push + 1 = hub.nextPush
  push_lt : ∀ push sending, hub.pushes.lookup push = some sending →
    push < hub.nextPush
  id_le : ∀ id stream, hub.streams.lookup id = some stream →
    id ≤ hub.subscriberSeq
  subscribed_of_open : ∀ id stream, hub.streams.lookup id = some stream →
    (∀ error, stream.phase ≠ .closed error) → id ∈ hub.subscribers
  items_nil : ∀ id stream, hub.streams.lookup id = some stream →
    stream.phase = .subscribed → stream.initialItems = []
  entry_lt : ∀ id stream, hub.streams.lookup id = some stream →
    ∀ entry ∈ stream.initialItems ++ stream.channel ++ stream.received,
      entry.push < hub.nextPush

theorem initial_ordered (notifyToken : String) (notifyCapacity : ℤ) :
    (initial notifyToken notifyCapacity : Hub Message).Ordered := by
  constructor
  · simp only [initial]
    split_ifs with hcapacity
    · decide
    · omega
  all_goals simp [initial]

theorem Ordered.pushNotification
    (hordered : hub.Ordered) (message : Message) :
    (hub.pushNotification message).Ordered := by
  obtain ⟨hcapacity, hbuffer, hlast, hpush, hid, hopen, hnil, hentry⟩ :=
    hordered
  constructor
  · exact hcapacity
  · intro entry hmem
    have happended := List.mem_of_mem_drop hmem
    simp only [List.mem_append, List.mem_singleton] at happended
    rcases happended with hold | rfl
    · exact Nat.lt_succ_of_lt (hbuffer entry hold)
    · exact Nat.lt_succ_self _
  · intro _
    refine ⟨_, ⟨hub.nextPush, message⟩,
      List.drop_append_of_le_length ?_, rfl⟩
    simp only [List.length_append, List.length_singleton]
    omega
  · grind [Hub.pushNotification, KeyedMap.lookup_insert_eq]
  · exact hid
  · exact hopen
  · exact hnil
  · intro id stream hstream entry hmem
    exact Nat.lt_succ_of_lt (hentry id stream hstream entry hmem)

/-- An update of one stream, possibly with a change of the subscribers or the
pushes in flight. -/
theorem Ordered.withStream
    {id : ℕ} {stream updated : Stream Message} {subscribers : Finset ℕ}
    {pushes : KeyedMap ℕ (Sending Message)}
    (hordered : hub.Ordered)
    (hstream : hub.streams.lookup id = some stream)
    (hpush : ∀ push sending, pushes.lookup push = some sending →
      push < hub.nextPush)
    (hothers : ∀ other ∈ hub.subscribers, other ≠ id → other ∈ subscribers)
    (hopen : (∀ error, updated.phase ≠ .closed error) → id ∈ subscribers)
    (hnil : updated.phase = .subscribed → updated.initialItems = [])
    (hentry : ∀ entry ∈ updated.initialItems ++ updated.channel ++
      updated.received, entry.push < hub.nextPush) :
    ({ hub with subscribers := subscribers, pushes := pushes }.withStream id
      updated).Ordered where
  capacity_pos := hordered.capacity_pos
  buffer_lt := hordered.buffer_lt
  buffer_last := hordered.buffer_last
  push_lt := hpush
  id_le := by
    have hle := hordered.id_le
    grind [Hub.withStream, KeyedMap.lookup_insert_eq]
  subscribed_of_open := by
    have hold := hordered.subscribed_of_open
    grind [Hub.withStream, KeyedMap.lookup_insert_eq]
  items_nil := by
    have hold := hordered.items_nil
    grind [Hub.withStream, KeyedMap.lookup_insert_eq]
  entry_lt := by
    have hold := hordered.entry_lt
    grind [Hub.withStream, KeyedMap.lookup_insert_eq]

theorem Ordered.addSubscriber
    (hordered : hub.Ordered) (initialLimit : String) :
    (hub.addSubscriber initialLimit).Ordered where
  capacity_pos := hordered.capacity_pos
  buffer_lt := hordered.buffer_lt
  buffer_last := hordered.buffer_last
  push_lt := hordered.push_lt
  id_le := by
    have hle := hordered.id_le
    grind [Hub.addSubscriber, Hub.withStream, KeyedMap.lookup_insert_eq]
  subscribed_of_open := by
    have hold := hordered.subscribed_of_open
    grind [Hub.addSubscriber, Hub.withStream, KeyedMap.lookup_insert_eq]
  items_nil := by
    have hold := hordered.items_nil
    grind [Hub.addSubscriber, Hub.withStream, KeyedMap.lookup_insert_eq]
  entry_lt := by
    have hold := hordered.entry_lt
    grind [Hub.addSubscriber, Hub.withStream, KeyedMap.lookup_insert_eq]

theorem mem_snapshot
    {buffer : List (Entry Message)} {limit : ℤ} {entry : Entry Message}
    (hmem : entry ∈ snapshotLatestNotifications buffer limit) :
    entry ∈ buffer := by
  rw [snapshotLatestNotifications, List.mem_reverse] at hmem
  exact List.mem_of_mem_drop hmem

/-- The snapshot has the last entry of the buffer, whatever the limit. -/
theorem last_mem_snapshot
    {init : List (Entry Message)} {last : Entry Message} (limit : ℤ) :
    last ∈ snapshotLatestNotifications (init ++ [last]) limit := by
  rw [snapshotLatestNotifications, List.mem_reverse,
    List.drop_append_of_le_length]
  · simp
  · simp only [List.length_append, List.length_singleton]
    split_ifs <;> omega

theorem Ordered.removeSubscriber
    {id : ℕ} {stream : Stream Message}
    (hordered : hub.Ordered)
    (hstream : hub.streams.lookup id = some stream)
    (error : Option ApiError) :
    (hub.removeSubscriber id stream error).Ordered := by
  apply hordered.withStream hstream hordered.push_lt
  · intro other hother hne
    exact Finset.mem_erase.mpr ⟨hne, hother⟩
  · intro hopen
    exact absurd rfl (hopen error)
  · simp
  · exact hordered.entry_lt id stream hstream

theorem Ordered.snapshot
    {id : ℕ} {limit : ℤ} {stream : Stream Message}
    (hordered : hub.Ordered)
    (hstream : hub.streams.lookup id = some stream)
    (hphase : stream.phase = .subscribed) :
    (hub.withStream id
      { stream with
        phase := .streaming
        initialItems :=
          snapshotLatestNotifications hub.notifications limit }).Ordered := by
  have hlt := hordered.entry_lt id stream hstream
  apply hordered.withStream hstream hordered.push_lt
  · exact fun other hother _ => hother
  · intro _
    exact hordered.subscribed_of_open id stream hstream (by simp [hphase])
  · simp
  · intro entry hmem
    simp only [List.mem_append] at hmem
    rcases hmem with (hitem | hchannel) | hreceived
    · exact hordered.buffer_lt entry (mem_snapshot hitem)
    · exact hlt entry (by simp [hchannel])
    · exact hlt entry (by simp [hreceived])

theorem Ordered.receive
    {id : ℕ} {stream : Stream Message} {entry : Entry Message}
    {rest : List (Entry Message)} (hordered : hub.Ordered)
    (hstream : hub.streams.lookup id = some stream)
    (hphase : stream.phase = .streaming)
    (hchannel : stream.channel = entry :: rest) :
    (hub.withStream id
      { stream with
        channel := rest
        received := stream.received ++ [entry] }).Ordered := by
  apply hordered.withStream hstream hordered.push_lt
  · exact fun other hother _ => hother
  · intro _
    exact hordered.subscribed_of_open id stream hstream (by simp [hphase])
  · simp [hphase]
  · intro other hmem
    apply hordered.entry_lt id stream hstream other
    simp only [hchannel, List.mem_append, List.mem_cons, List.not_mem_nil,
      or_false] at hmem ⊢
    tauto

theorem Ordered.send
    {push id : ℕ} {sending : Sending Message} {stream : Stream Message}
    (hordered : hub.Ordered)
    (hsending : hub.pushes.lookup push = some sending)
    (hstream : hub.streams.lookup id = some stream) :
    (hub.send push sending id stream).Ordered := by
  apply hordered.withStream hstream
  · have hpush := hordered.push_lt
    grind [KeyedMap.lookup_insert_eq]
  · exact fun other hother _ => hother
  · intro hphase
    apply hordered.subscribed_of_open id stream hstream
    split_ifs at hphase with hroom
    · exact hphase
    · exact hphase
  · have hnil := hordered.items_nil id stream hstream
    split_ifs with hroom
    · exact hnil
    · exact hnil
  · have hpush := hordered.push_lt push sending hsending
    have hold := hordered.entry_lt id stream hstream
    split_ifs with hroom
    · intro entry hentry
      simp only [List.mem_append, List.mem_singleton] at hentry hold
      rcases hentry with (hitem | hchannel | rfl) | hreceived
      · exact hold entry (Or.inl (Or.inl hitem))
      · exact hold entry (Or.inl (Or.inr hchannel))
      · exact hpush
      · exact hold entry (Or.inr hreceived)
    · exact hold

theorem Ordered.moves
    (hordered : hub.Ordered) (hmoves : hub.Moves turn next) :
    next.Ordered := by
  cases hmoves with
  | refuse => exact hordered
  | subscribe => exact hordered.addSubscriber _
  | reject hstream hlimit => exact hordered.removeSubscriber hstream _
  | snapshot hstream hphase hlimit => exact hordered.snapshot hstream hphase
  | receive hstream hphase hchannel =>
      exact hordered.receive hstream hphase hchannel
  | leave hstream => exact hordered.removeSubscriber hstream _
  | push => exact hordered.pushNotification _
  | send hsending hstream hmem => exact hordered.send hsending hstream

end Hub

end SoulonWallet.Api
