import SoulonWallet.NotificationStream

/-!
# What a notification stream writes

A push that comes after the stream has subscribed goes through its channel
once, as long as the channel is never full.  The snapshot of the stream adds
what is in the buffer by then, and the last push is always part of it, so a
push between the two is written a second time.
-/

namespace SoulonWallet.Api

open LabelledRun

namespace Hub

variable {Message : Type} {hub next : Hub Message}
variable {turn : StreamTurn Message}

/-! ## What comes through the channel -/

/-- Whether the push has still to send to the channel of the stream. -/
def pending (hub : Hub Message) (push id : ℕ) : ℕ :=
  match hub.pushes.lookup push with
  | some sending => if id ∈ sending.remaining then 1 else 0
  | none => 0

/-- Every push after `addSubscriber` is at one place on its way through the
channel. -/
def Flows (hub : Hub Message) (id : ℕ) : Prop :=
  ∀ stream push, hub.streams.lookup id = some stream →
    (∀ error, stream.phase ≠ .closed error) →
    stream.since ≤ push → push < hub.nextPush →
    (stream.received.map Entry.push).count push +
      (stream.channel.map Entry.push).count push + hub.pending push id = 1

/-- The channel of the stream is not full when a push sends to it. -/
def HasRoom (hub : Hub Message) (id : ℕ) : StreamTurn Message → Prop
  | .send _ target =>
      target = id → ∀ stream, hub.streams.lookup id = some stream →
        stream.channel.length < channelCapacity
  | _ => True

theorem lookup_withStream
    (hub : Hub Message) (id other : ℕ) (stream : Stream Message) :
    (hub.withStream id stream).streams.lookup other =
      if other = id then some stream else hub.streams.lookup other :=
  KeyedMap.lookup_insert_eq _ _ _ _

/-- A turn that keeps the pushes and updates one stream without changing what
is in its channel or has come out of it. -/
theorem Flows.withStream
    {id target : ℕ} {stream updated : Stream Message}
    {subscribers : Finset ℕ}
    (hflows : hub.Flows id)
    (hstream : hub.streams.lookup target = some stream)
    (hopen : (∀ error, updated.phase ≠ .closed error) →
      ∀ error, stream.phase ≠ .closed error)
    (hsince : updated.since = stream.since)
    (hcount : ∀ push,
      (updated.received.map Entry.push).count push +
        (updated.channel.map Entry.push).count push =
      (stream.received.map Entry.push).count push +
        (stream.channel.map Entry.push).count push) :
    ({ hub with subscribers := subscribers }.withStream target
      updated).Flows id := by
  intro current push hlookup hphase hle hlt
  rw [lookup_withStream] at hlookup
  split_ifs at hlookup with htarget
  · subst htarget
    obtain rfl := Option.some.inj hlookup
    rw [hsince] at hle
    rw [hcount]
    exact hflows stream push hstream (hopen hphase) hle hlt
  · exact hflows current push hlookup hphase hle hlt

theorem Flows.addSubscriber
    {id : ℕ} (hflows : hub.Flows id) (initialLimit : String) :
    (hub.addSubscriber initialLimit).Flows id := by
  intro stream push hlookup hphase hle hlt
  rw [Hub.addSubscriber, lookup_withStream] at hlookup
  split_ifs at hlookup
  · obtain rfl := Option.some.inj hlookup
    exact absurd hlt (not_lt.mpr hle)
  · exact hflows stream push hlookup hphase hle hlt

theorem count_push_eq_zero
    {entries : List (Entry Message)} {push : ℕ}
    (hentries : ∀ entry ∈ entries, entry.push < push) :
    (entries.map Entry.push).count push = 0 := by
  rw [List.count_eq_zero, List.mem_map]
  rintro ⟨entry, hmem, rfl⟩
  exact lt_irrefl _ (hentries entry hmem)

theorem Flows.pushNotification
    {id : ℕ} (hflows : hub.Flows id) (hordered : hub.Ordered)
    (message : Message) :
    (hub.pushNotification message).Flows id := by
  intro stream push hlookup hphase hle hlt
  change hub.streams.lookup id = some stream at hlookup
  by_cases hnew : push = hub.nextPush
  · subst hnew
    have hentries := hordered.entry_lt id stream hlookup
    have hsubscribed := hordered.subscribed_of_open id stream hlookup hphase
    rw [count_push_eq_zero (fun entry hmem => hentries entry (by simp [hmem])),
      count_push_eq_zero (fun entry hmem => hentries entry (by simp [hmem]))]
    simp [pending, Hub.pushNotification, hsubscribed]
  · have hold : push < hub.nextPush := by
      simp only [Hub.pushNotification] at hlt
      omega
    have hpending : (hub.pushNotification message).pending push id =
        hub.pending push id := by
      simp [pending, Hub.pushNotification, AList.lookup_insert_ne hnew]
    rw [hpending]
    exact hflows stream push hlookup hphase hle hold

theorem Flows.send
    {id push target : ℕ} {sending : Sending Message}
    {stream : Stream Message}
    (hflows : hub.Flows id)
    (hsending : hub.pushes.lookup push = some sending)
    (hstream : hub.streams.lookup target = some stream)
    (hmem : target ∈ sending.remaining)
    (hroom : hub.HasRoom id (.send push target)) :
    (hub.send push sending target stream).Flows id := by
  intro current other hlookup hphase hle hlt
  have hpending : (hub.send push sending target stream).pending other id =
      if other = push ∧ target = id then 0 else hub.pending other id := by
    unfold pending
    grind [Hub.send, Hub.withStream, KeyedMap.lookup_insert_eq]
  rw [Hub.send, lookup_withStream] at hlookup
  rw [hpending]
  split_ifs at hlookup with htarget hfree
  · subst htarget
    obtain rfl := Option.some.inj hlookup
    have hbefore := hflows stream other hstream hphase hle hlt
    by_cases hother : other = push
    · subst hother
      have hone : hub.pending other id = 1 := by
        simp [pending, hsending, hmem]
      simp only [List.map_append, List.map_cons, List.map_nil,
        List.count_append, List.count_singleton_self, and_self, if_true]
      omega
    · have hnone : List.count other [push] = 0 := by
        simpa [List.count_singleton] using Ne.symm hother
      simp only [List.map_append, List.map_cons, List.map_nil,
        List.count_append, hnone, hother, false_and, if_false]
      omega
  · exact absurd (hroom htarget.symm stream (htarget ▸ hstream)) hfree
  · have hne : ¬ (other = push ∧ target = id) :=
      fun hboth => htarget hboth.2.symm
    rw [if_neg hne]
    exact hflows current other hlookup hphase hle hlt

theorem Flows.moves
    {id : ℕ} (hflows : hub.Flows id) (hordered : hub.Ordered)
    (hroom : hub.HasRoom id turn) (hmoves : hub.Moves turn next) :
    next.Flows id := by
  cases hmoves with
  | refuse => exact hflows
  | subscribe => exact hflows.addSubscriber _
  | reject hstream hlimit =>
      apply hflows.withStream hstream
      · exact fun hphase => absurd rfl (hphase _)
      · rfl
      · exact fun _ => rfl
  | snapshot hstream hphase hlimit =>
      apply hflows.withStream hstream
      · simp [hphase]
      · rfl
      · exact fun _ => rfl
  | receive hstream hphase hchannel =>
      apply hflows.withStream hstream
      · exact fun hopen => hopen
      · rfl
      · intro push
        simp only [hchannel, List.map_append, List.map_cons, List.map_nil,
          List.count_append, List.count_cons, List.count_nil]
        omega
  | leave hstream =>
      apply hflows.withStream hstream
      · exact fun hphase => absurd rfl (hphase _)
      · rfl
      · exact fun _ => rfl
  | push => exact hflows.pushNotification hordered _
  | send hsending hstream hmem =>
      exact hflows.send hsending hstream hmem hroom

/-! ## What the snapshot repeats -/

/-- The snapshot of the stream has no push that came after its
`addSubscriber`. -/
def Unrepeated (hub : Hub Message) (id : ℕ) : Prop :=
  ∀ stream, hub.streams.lookup id = some stream →
    ∀ entry ∈ stream.initialItems, entry.push < stream.since

/-- No push comes between the `addSubscriber` of the stream and its
snapshot. -/
def Quiet (hub : Hub Message) (id : ℕ) : StreamTurn Message → Prop
  | .snapshot target =>
      target = id → ∀ stream limit, hub.streams.lookup id = some stream →
        parseInitialLimit stream.initialLimit = .ok limit →
        hub.nextPush ≤ stream.since
  | _ => True

theorem Unrepeated.withStream
    {id target : ℕ} {stream updated : Stream Message}
    {subscribers : Finset ℕ} {pushes : KeyedMap ℕ (Sending Message)}
    (hunrepeated : hub.Unrepeated id)
    (hstream : hub.streams.lookup target = some stream)
    (hitems : updated.initialItems = stream.initialItems)
    (hsince : updated.since = stream.since) :
    ({ hub with subscribers := subscribers, pushes := pushes }.withStream
      target updated).Unrepeated id := by
  intro current hlookup
  rw [lookup_withStream] at hlookup
  split_ifs at hlookup with htarget
  · subst htarget
    obtain rfl := Option.some.inj hlookup
    rw [hitems, hsince]
    exact hunrepeated stream hstream
  · exact hunrepeated current hlookup

/-- The snapshot always has the last push, so it repeats one exactly when one
has come since `addSubscriber`. -/
theorem unrepeated_snapshot_iff
    {id : ℕ} {stream : Stream Message} (hordered : hub.Ordered) (limit : ℤ) :
    (hub.withStream id
      { stream with
        phase := .streaming
        initialItems := snapshotLatestNotifications hub.notifications
          limit }).Unrepeated id ↔
      hub.nextPush ≤ stream.since := by
  constructor
  · intro hunrepeated
    by_contra hlate
    obtain ⟨init, last, hbuffer, hlast⟩ := hordered.buffer_last (by omega)
    have hmem : last ∈ snapshotLatestNotifications hub.notifications
        limit := by
      rw [hbuffer]
      exact last_mem_snapshot limit
    have hlt := hunrepeated _ (AList.lookup_insert _) last hmem
    simp only at hlt
    omega
  · intro hle current hlookup entry hmem
    rw [lookup_withStream, if_pos rfl] at hlookup
    obtain rfl := Option.some.inj hlookup
    exact (hordered.buffer_lt entry (mem_snapshot hmem)).trans_le hle

theorem Unrepeated.moves_iff
    {id : ℕ} (hunrepeated : hub.Unrepeated id) (hordered : hub.Ordered)
    (hmoves : hub.Moves turn next) :
    next.Unrepeated id ↔ hub.Quiet id turn := by
  cases hmoves with
  | refuse => exact iff_of_true hunrepeated trivial
  | subscribe =>
      refine iff_of_true ?_ trivial
      intro stream hlookup
      rw [Hub.addSubscriber, lookup_withStream] at hlookup
      split_ifs at hlookup
      · obtain rfl := Option.some.inj hlookup
        simp
      · exact hunrepeated stream hlookup
  | @reject target stream payload hstream hlimit =>
      refine iff_of_true (hunrepeated.withStream hstream rfl rfl) ?_
      rintro rfl current limit hlookup hok
      rw [hstream, Option.some.injEq] at hlookup
      subst hlookup
      rw [hlimit] at hok
      cases hok
  | @snapshot target stream limit hstream hphase hlimit =>
      by_cases htarget : target = id
      · subst htarget
        rw [unrepeated_snapshot_iff hordered]
        constructor
        · intro hle _ current _ hlookup _
          rw [hstream, Option.some.injEq] at hlookup
          exact hlookup ▸ hle
        · intro hquiet
          exact hquiet rfl stream limit hstream hlimit
      · refine iff_of_true ?_ (fun heq => absurd heq htarget)
        intro current hlookup
        rw [lookup_withStream, if_neg (Ne.symm htarget)] at hlookup
        exact hunrepeated current hlookup
  | receive hstream hphase hchannel =>
      exact iff_of_true (hunrepeated.withStream hstream rfl rfl) trivial
  | leave hstream =>
      exact iff_of_true (hunrepeated.withStream hstream rfl rfl) trivial
  | push => exact iff_of_true hunrepeated trivial
  | send hsending hstream hmem =>
      refine iff_of_true (hunrepeated.withStream hstream ?_ ?_) trivial
      · split_ifs <;> rfl
      · split_ifs <;> rfl

theorem Unrepeated.of_withStream
    {id target : ℕ} {stream updated : Stream Message}
    {subscribers : Finset ℕ} {pushes : KeyedMap ℕ (Sending Message)}
    (hstream : hub.streams.lookup target = some stream)
    (hunrepeated : ({ hub with
      subscribers := subscribers
      pushes := pushes }.withStream target updated).Unrepeated id)
    (hitems : updated.initialItems = stream.initialItems)
    (hsince : updated.since = stream.since) :
    hub.Unrepeated id := by
  intro current hlookup
  by_cases htarget : id = target
  · subst htarget
    rw [hstream, Option.some.injEq] at hlookup
    subst hlookup
    rw [← hitems, ← hsince]
    exact hunrepeated updated (AList.lookup_insert _)
  · apply hunrepeated current
    rw [lookup_withStream, if_neg htarget]
    exact hlookup

/-- What a snapshot repeats stays repeated. -/
theorem Unrepeated.of_moves
    {id : ℕ} (hunrepeated : next.Unrepeated id) (hordered : hub.Ordered)
    (hmoves : hub.Moves turn next) : hub.Unrepeated id := by
  cases hmoves with
  | refuse => exact hunrepeated
  | subscribe =>
      intro stream hlookup
      apply hunrepeated stream
      have hne : id ≠ hub.subscriberSeq + 1 := by
        have hle := hordered.id_le id stream hlookup
        omega
      rw [Hub.addSubscriber, lookup_withStream, if_neg hne]
      exact hlookup
  | reject hstream hlimit =>
      exact Unrepeated.of_withStream hstream hunrepeated rfl rfl
  | @snapshot target stream limit hstream hphase hlimit =>
      intro current hlookup
      by_cases htarget : id = target
      · subst htarget
        rw [hstream, Option.some.injEq] at hlookup
        subst hlookup
        simp [hordered.items_nil id stream hstream hphase]
      · apply hunrepeated current
        rw [lookup_withStream, if_neg htarget]
        exact hlookup
  | receive hstream hphase hchannel =>
      exact Unrepeated.of_withStream hstream hunrepeated rfl rfl
  | leave hstream =>
      exact Unrepeated.of_withStream hstream hunrepeated rfl rfl
  | push => exact hunrepeated
  | send hsending hstream hmem =>
      apply Unrepeated.of_withStream hstream hunrepeated
      · split_ifs <;> rfl
      · split_ifs <;> rfl

/-! ## Runs -/

/-- Nothing is on its way to the stream any more. -/
structure Drained (hub : Hub Message) (id : ℕ) (stream : Stream Message) :
    Prop where
  lookup : hub.streams.lookup id = some stream
  streaming : stream.phase = .streaming
  channel : stream.channel = []
  sent : ∀ push, hub.pending push id = 0

/-- Every notification pushed after the `addSubscriber` of the stream has been
written once. -/
def WritesOnce (hub : Hub Message) (stream : Stream Message) : Prop :=
  ∀ push, stream.since ≤ push → push < hub.nextPush →
    stream.written.count push = 1

theorem Drained.writesOnce_iff
    {id : ℕ} {stream : Stream Message}
    (hdrained : hub.Drained id stream) (hordered : hub.Ordered)
    (hflows : hub.Flows id) :
    hub.WritesOnce stream ↔ hub.Unrepeated id := by
  have hreceived : ∀ push, stream.since ≤ push → push < hub.nextPush →
      (stream.received.map Entry.push).count push = 1 := by
    intro push hle hlt
    have hflow := hflows stream push hdrained.lookup
      (by simp [hdrained.streaming]) hle hlt
    simpa [hdrained.channel, hdrained.sent] using hflow
  constructor
  · intro honce current hlookup entry hmem
    rw [hdrained.lookup, Option.some.injEq] at hlookup
    subst hlookup
    by_contra hlate
    have hle : stream.since ≤ entry.push := by omega
    have hlt := hordered.entry_lt id stream hdrained.lookup entry
      (by simp [hmem])
    have hwritten := honce entry.push hle hlt
    have hitem : 0 < (stream.initialItems.map Entry.push).count entry.push :=
      List.count_pos_iff.mpr (List.mem_map_of_mem hmem)
    rw [Stream.written, List.map_append, List.count_append,
      hreceived entry.push hle hlt] at hwritten
    omega
  · intro hunrepeated push hle hlt
    have hitems : (stream.initialItems.map Entry.push).count push = 0 := by
      apply count_push_eq_zero
      intro entry hmem
      exact (hunrepeated stream hdrained.lookup entry hmem).trans_le hle
    rw [Stream.written, List.map_append, List.count_append, hitems,
      hreceived push hle hlt]

end Hub

/-- A drained stream, whose channel was never full, has written every push
after its `addSubscriber` once exactly when none of them came before its
snapshot. -/
theorem stream_writes_once_iff
    {Message : Type} {notifyToken : String} {notifyCapacity : ℤ}
    {turns : List (StreamTurn Message)} {hub : Hub Message} {id : ℕ}
    {stream : Stream Message}
    (hrun : exec Hub.step (.initial notifyToken notifyCapacity) turns =
      some hub)
    (hroom : Guarded Hub.step (fun hub => hub.HasRoom id)
      (.initial notifyToken notifyCapacity) turns)
    (hdrained : hub.Drained id stream) :
    hub.WritesOnce stream ↔
      Guarded Hub.step (fun hub => hub.Quiet id)
        (.initial notifyToken notifyCapacity) turns := by
  have hinit : (Hub.initial notifyToken notifyCapacity :
      Hub Message).Ordered :=
    Hub.initial_ordered notifyToken notifyCapacity
  have hflowing : hub.Ordered ∧ hub.Flows id := by
    apply invariant_of_guarded (fun hub => hub.Ordered ∧ hub.Flows id) ?_ ?_
      hroom hrun
    · rintro state turn next ⟨hordered, hflows⟩ hguard hstep
      have hmoves := Hub.moves_of_step hstep
      exact ⟨hordered.moves hmoves, hflows.moves hordered hguard hmoves⟩
    · exact ⟨hinit, by simp [Hub.Flows, Hub.initial]⟩
  have hvisits : (∀ state,
      Visits Hub.step (.initial notifyToken notifyCapacity) turns state →
        state.Unrepeated id) ↔ hub.Unrepeated id := by
    constructor
    · intro hall
      exact hall hub ⟨turns, List.prefix_rfl, hrun⟩
    · intro hfinal state hvisit
      by_contra hrepeated
      have hordered : state.Ordered :=
        hroom.invariant_of_visits Hub.Ordered
          (fun _ _ _ hordered _ hstep =>
            hordered.moves (Hub.moves_of_step hstep)) hinit hvisit
      obtain ⟨rest, hrest⟩ := hvisit.exists_rest hrun
      have hstays : hub.Ordered ∧ ¬ hub.Unrepeated id := by
        apply invariant_of_step
          (fun hub => hub.Ordered ∧ ¬ hub.Unrepeated id) ?_
          ⟨hordered, hrepeated⟩ hrest
        rintro before turn after ⟨hbefore, hrepeats⟩ hstep
        have hmoves := Hub.moves_of_step hstep
        exact ⟨hbefore.moves hmoves,
          fun hafter => hrepeats (hafter.of_moves hbefore hmoves)⟩
      exact hstays.2 hfinal
  rw [hdrained.writesOnce_iff hflowing.1 hflowing.2, ← hvisits]
  apply forall_visits_iff_guarded Hub.Ordered (fun hub => hub.Unrepeated id)
  · intro state turn next hordered hstep
    exact hordered.moves (Hub.moves_of_step hstep)
  · intro state turn next hordered hunrepeated hstep
    exact hunrepeated.moves_iff hordered (Hub.moves_of_step hstep)
  · exact hinit
  · simp [Hub.Unrepeated, Hub.initial]

def streamRequest : StreamRequest where
  method := "GET"
  queryToken := ""
  authorization := ""
  flusher := true
  initialLimit := ""

def pushAfterSnapshot : List (StreamTurn String) :=
  [.push "first", .subscribe streamRequest, .snapshot 1, .push "second",
    .send 1 1, .receive 1]

/-- Only pushes that have been numbered have to be looked at. -/
theorem Hub.pending_eq_zero
    {Message : Type} {notifyToken : String} {notifyCapacity : ℤ}
    {turns : List (StreamTurn Message)} {hub : Hub Message} {push : ℕ}
    (hrun : exec Hub.step (.initial notifyToken notifyCapacity) turns =
      some hub)
    (hpush : hub.nextPush ≤ push) (id : ℕ) :
    hub.pending push id = 0 := by
  have hordered : hub.Ordered :=
    invariant_of_step Hub.Ordered
      (fun _ _ _ hordered hstep => hordered.moves (Hub.moves_of_step hstep))
      (Hub.initial_ordered notifyToken notifyCapacity) hrun
  unfold Hub.pending
  split
  next sending hsending =>
    exact absurd (hordered.push_lt push sending hsending) (not_lt.mpr hpush)
  next => rfl

theorem stream_writes_once_in_pushAfterSnapshot :
    ∃ hub stream,
      exec Hub.step (.initial "" 10) pushAfterSnapshot = some hub ∧
      hub.Drained 1 stream ∧ stream.written = [0, 1] ∧
      stream.since = 1 ∧ hub.nextPush = 2 ∧ hub.WritesOnce stream := by
  obtain ⟨hub, stream, hrun, hlookup, hphase, hchannel, hwritten, hsince,
      hnext, hzero, hone⟩ : ∃ hub stream,
      exec Hub.step (.initial "" 10) pushAfterSnapshot = some hub ∧
      hub.streams.lookup 1 = some stream ∧ stream.phase = .streaming ∧
      stream.channel = [] ∧ stream.written = [0, 1] ∧ stream.since = 1 ∧
      hub.nextPush = 2 ∧ hub.pending 0 1 = 0 ∧ hub.pending 1 1 = 0 :=
    ⟨_, _, rfl, rfl, rfl, rfl, rfl, rfl, rfl, rfl, rfl⟩
  have hdrained : hub.Drained 1 stream := by
    refine ⟨hlookup, hphase, hchannel, ?_⟩
    intro push
    rcases Nat.lt_or_ge push 2 with hlt | hge
    · interval_cases push
      · exact hzero
      · exact hone
    · exact Hub.pending_eq_zero hrun (hnext ▸ hge) 1
  refine ⟨hub, stream, hrun, hdrained, hwritten, hsince, hnext, ?_⟩
  apply (stream_writes_once_iff hrun ?_ hdrained).mpr
  · refine ⟨trivial, trivial, ?_, trivial, trivial, trivial, trivial⟩
    intro _ current limit hcurrent _
    obtain rfl := Option.some.inj hcurrent
    exact le_rfl
  · refine ⟨trivial, trivial, trivial, trivial, ?_, trivial, trivial⟩
    intro _ current hcurrent
    obtain rfl := Option.some.inj hcurrent
    decide

/-- The push comes between `addSubscriber` and the snapshot. -/
def pushBeforeSnapshot : List (StreamTurn String) :=
  [.subscribe streamRequest, .push "only", .snapshot 1, .send 0 1,
    .receive 1]

theorem stream_writes_pushBeforeSnapshot_twice :
    ¬ ∀ (notifyToken : String) (notifyCapacity : ℤ)
      (turns : List (StreamTurn String)) (hub : Hub String) (id : ℕ)
      (stream : Stream String),
      exec Hub.step (.initial notifyToken notifyCapacity) turns = some hub →
      Guarded Hub.step (fun hub => hub.HasRoom id)
        (.initial notifyToken notifyCapacity) turns →
      hub.Drained id stream → hub.WritesOnce stream := by
  intro hall
  obtain ⟨hub, stream, hrun, hlookup, hphase, hchannel, hwritten, hsince,
      hnext, hzero⟩ : ∃ hub stream,
      exec Hub.step (.initial "" 10) pushBeforeSnapshot = some hub ∧
      hub.streams.lookup 1 = some stream ∧ stream.phase = .streaming ∧
      stream.channel = [] ∧ stream.written = [0, 0] ∧ stream.since = 0 ∧
      hub.nextPush = 1 ∧ hub.pending 0 1 = 0 :=
    ⟨_, _, rfl, rfl, rfl, rfl, rfl, rfl, rfl, rfl⟩
  have hdrained : hub.Drained 1 stream := by
    refine ⟨hlookup, hphase, hchannel, ?_⟩
    intro push
    rcases Nat.eq_zero_or_pos push with rfl | hpos
    · exact hzero
    · exact Hub.pending_eq_zero hrun (hnext ▸ hpos) 1
  have honce := hall "" 10 pushBeforeSnapshot hub 1 stream hrun ?_ hdrained 0
    (by omega) (by omega)
  · rw [hwritten] at honce
    revert honce
    decide
  · refine ⟨trivial, trivial, trivial, ?_, trivial, trivial⟩
    intro _ current hcurrent
    obtain rfl := Option.some.inj hcurrent
    decide

end SoulonWallet.Api
