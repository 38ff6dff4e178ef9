import SoulonWallet.SignatureChallenge

/-!
# Authorizations match issued challenges

The account, the expiry and the signature of a confirm are checked outside of
the lock, but by then its call is the only one to have the challenge.  A
challenge is always at one place: in the map under its id, or with the call
that took it out.  Every place in use is given the call that issued what is
there, and distinct places have distinct calls, so two authorizations never
share an issued challenge, even when their request ids are equal.
-/

namespace SoulonWallet.Api

open LabelledRun

def Event.call : Event → ℕ
  | .requested call _ | .issued call _ | .received call _ _
  | .answered call _ _ => call

def Event.IsArrival : Event → Prop
  | .requested _ _ | .received _ _ _ => True
  | _ => False

/-- Two events of which a call has at most one. -/
def Event.Repeats : Event → Event → Prop
  | .issued call _, .issued other _ => call = other
  | .answered call _ _, .answered other _ _ => call = other
  | _, _ => False

theorem Event.repeats_issued
    {event : Event} {call : ℕ} {challenge : SignatureChallenge} :
    event.Repeats (.issued call challenge) ↔
      ∃ earlier, event = .issued call earlier := by
  cases event <;> simp [Event.Repeats]

theorem Event.repeats_answered
    {event : Event} {call : ℕ} {clock : ℤ} {answer : Answer} :
    event.Repeats (.answered call clock answer) ↔
      ∃ earlier reply, event = .answered call earlier reply := by
  cases event <;> simp [Event.Repeats]

theorem Event.not_repeats_arrival
    {event arrival : Event} (harrival : arrival.IsArrival) :
    ¬ event.Repeats arrival := by
  cases arrival <;> cases event <;> simp_all [Event.Repeats, IsArrival]

theorem Event.once_append
    {history : List Event} {event : Event}
    (honce : history.Pairwise fun event later => ¬ event.Repeats later)
    (hnew : ∀ earlier ∈ history, ¬ earlier.Repeats event) :
    (history ++ [event]).Pairwise
      fun event later => ¬ event.Repeats later := by
  rw [List.pairwise_append]
  refine ⟨honce, List.pairwise_singleton _ _, ?_⟩
  simpa using hnew

namespace Server

/-- The calls are numbered in the order they arrive, a call issues once and
is answered once, and a call still in flight has not been answered. -/
structure Numbered (server : Server) : Prop where
  call_lt : ∀ call stage, server.calls.lookup call = some stage →
    call < server.nextCall
  event_lt : ∀ event ∈ server.history, event.call < server.nextCall
  not_issued : ∀ call challenge challenge',
    server.calls.lookup call = some (.issuing challenge) →
      .issued call challenge' ∉ server.history
  not_answered : ∀ call stage clock answer,
    server.calls.lookup call = some stage →
      .answered call clock answer ∉ server.history
  once : server.history.Pairwise fun event later => ¬ event.Repeats later

variable {server next : Server}

theorem initial_numbered (challengeTTL clock : ℤ) :
    (initial challengeTTL clock).Numbered := by
  constructor <;> simp [initial]

theorem Numbered.enter
    {arrival : Event}
    (hnumbered : server.Numbered) (harrival : arrival.IsArrival)
    (hcall : arrival.call = server.nextCall) (stage : Stage) :
    (server.enter arrival stage).Numbered where
  call_lt := by
    have hlt := hnumbered.call_lt
    grind [Server.enter, KeyedMap.lookup_insert_eq]
  event_lt := by
    have hlt := hnumbered.event_lt
    grind [Server.enter]
  not_issued := by
    have hlt := hnumbered.event_lt
    have hnot := hnumbered.not_issued
    grind [Server.enter, KeyedMap.lookup_insert_eq, Event.call,
      Event.IsArrival]
  not_answered := by
    have hlt := hnumbered.event_lt
    have hnot := hnumbered.not_answered
    grind [Server.enter, KeyedMap.lookup_insert_eq, Event.call,
      Event.IsArrival]
  once := Event.once_append hnumbered.once
    fun _ _ => Event.not_repeats_arrival harrival

theorem Numbered.answer
    {call : ℕ} {stage : Stage}
    (hnumbered : server.Numbered)
    (hcall : server.calls.lookup call = some stage)
    (clock : ℤ) (answer : Answer) :
    (server.answer call clock answer).Numbered where
  call_lt := by
    have hlt := hnumbered.call_lt
    grind [Server.answer, KeyedMap.lookup_erase_eq]
  event_lt := by
    have hlt := hnumbered.event_lt
    have hcallLt := hnumbered.call_lt
    grind [Server.answer, Event.call]
  not_issued := by
    have hnot := hnumbered.not_issued
    grind [Server.answer, KeyedMap.lookup_erase_eq]
  not_answered := by
    have hnot := hnumbered.not_answered
    grind [Server.answer, KeyedMap.lookup_erase_eq]
  once := by
    apply Event.once_append hnumbered.once
    rintro event hevent hrepeats
    obtain ⟨earlier, reply, rfl⟩ := Event.repeats_answered.mp hrepeats
    exact hnumbered.not_answered call stage earlier reply hcall hevent

theorem Numbered.refuse
    {arrival : Event}
    (hnumbered : server.Numbered) (harrival : arrival.IsArrival)
    (hcall : arrival.call = server.nextCall) (payload : ApiError) :
    (server.refuse arrival payload).Numbered where
  call_lt := by
    have hlt := hnumbered.call_lt
    grind [Server.refuse]
  event_lt := by
    have hlt := hnumbered.event_lt
    grind [Server.refuse, Event.call]
  not_issued := by
    have hnot := hnumbered.not_issued
    grind [Server.refuse, Event.IsArrival]
  not_answered := by
    have hlt := hnumbered.call_lt
    have hnot := hnumbered.not_answered
    grind [Server.refuse, Event.IsArrival]
  once := by
    have harrived := Event.once_append hnumbered.once
      fun _ _ => Event.not_repeats_arrival harrival
    rw [Server.refuse, List.append_cons]
    apply Event.once_append harrived
    intro event hevent hrepeats
    obtain ⟨earlier, reply, rfl⟩ := Event.repeats_answered.mp hrepeats
    have hlt := hnumbered.event_lt
    grind [Event.IsArrival, Event.call]

theorem Numbered.store
    {call : ℕ} {challenge : SignatureChallenge}
    (hnumbered : server.Numbered)
    (hcall : server.calls.lookup call = some (.issuing challenge)) :
    (server.store call challenge).Numbered where
  call_lt := by
    have hlt := hnumbered.call_lt
    grind [Server.store, KeyedMap.lookup_insert_eq]
  event_lt := by
    have hlt := hnumbered.event_lt
    have hcallLt := hnumbered.call_lt
    grind [Server.store, Event.call]
  not_issued := by
    have hnot := hnumbered.not_issued
    grind [Server.store, KeyedMap.lookup_insert_eq]
  not_answered := by
    have hnot := hnumbered.not_answered
    grind [Server.store, KeyedMap.lookup_insert_eq]
  once := by
    apply Event.once_append hnumbered.once
    rintro event hevent hrepeats
    obtain ⟨earlier, rfl⟩ := Event.repeats_issued.mp hrepeats
    exact hnumbered.not_issued call challenge earlier hcall hevent

theorem Numbered.take
    {call : ℕ} {sender : String} {input : ConfirmInput}
    (hnumbered : server.Numbered)
    (hcall : server.calls.lookup call = some (.confirming sender input)) :
    (server.take call sender input).Numbered where
  call_lt := by
    have hlt := hnumbered.call_lt
    grind [Server.take, KeyedMap.lookup_insert_eq]
  event_lt := hnumbered.event_lt
  not_issued := by
    have hnot := hnumbered.not_issued
    grind [Server.take, KeyedMap.lookup_insert_eq]
  not_answered := by
    have hnot := hnumbered.not_answered
    grind [Server.take, KeyedMap.lookup_insert_eq]
  once := hnumbered.once

theorem Numbered.withClock
    (hnumbered : server.Numbered) (clock : ℤ) :
    ({ server with clock := clock } : Server).Numbered :=
  ⟨hnumbered.call_lt, hnumbered.event_lt, hnumbered.not_issued,
    hnumbered.not_answered, hnumbered.once⟩

theorem Numbered.moves
    {turn : Turn}
    (hnumbered : server.Numbered) (hmoves : server.Moves turn next) :
    next.Numbered := by
  cases hmoves with
  | refusedChallenge hnew =>
      apply (hnumbered.withClock _).refuse
      · exact trivial
      · rfl
  | challenge hnew =>
      apply (hnumbered.withClock _).enter
      · exact trivial
      · rfl
  | store hcall => exact hnumbered.store hcall
  | respond hcall => exact hnumbered.answer hcall _ _
  | refusedConfirm hparse =>
      apply hnumbered.refuse
      · exact trivial
      · rfl
  | confirm hparse =>
      apply hnumbered.enter
      · exact trivial
      · rfl
  | take hcall => exact hnumbered.take hcall
  | @check call now authorizedAt sender input found hcall =>
      exact (hnumbered.withClock authorizedAt).answer hcall _ _

/-- A challenge is kept under the id it was issued with. -/
structure Keyed (server : Server) : Prop where
  pending : ∀ requestId challenge,
    server.challenges.lookup requestId = some challenge →
      challenge.requestId = requestId
  taken : ∀ call sender input challenge,
    server.calls.lookup call = some (.taken sender input (some challenge)) →
      challenge.requestId = input.requestId

theorem initial_keyed (challengeTTL clock : ℤ) :
    (initial challengeTTL clock).Keyed := by
  constructor <;> simp [initial]

theorem Keyed.moves
    {turn : Turn}
    (hkeyed : server.Keyed) (hmoves : server.Moves turn next) :
    next.Keyed := by
  have hpending := hkeyed.pending
  have htaken := hkeyed.taken
  cases hmoves with
  | refusedChallenge hnew | refusedConfirm hparse =>
      exact ⟨hpending, htaken⟩
  | challenge hnew | confirm hparse =>
      constructor <;> grind [Server.enter, KeyedMap.lookup_insert_eq]
  | store hcall =>
      constructor <;> grind [Server.store, KeyedMap.lookup_insert_eq]
  | respond hcall | check hcall =>
      constructor <;> grind [Server.answer, KeyedMap.lookup_erase_eq]
  | take hcall =>
      constructor <;> grind [Server.take, KeyedMap.lookup_insert_eq,
        KeyedMap.lookup_erase_eq]

/-! ## The challenge behind an authorization -/

end Server

/-- Where an issued challenge is kept: under its id, or by the confirm that
took it from there. -/
inductive Place where
  | pending (requestId : String)
  | taken (call : ℕ)
  deriving DecidableEq

namespace Server

variable {server next : Server}

def Holds (server : Server) : Place → SignatureChallenge → Prop
  | .pending requestId, challenge =>
      server.challenges.lookup requestId = some challenge
  | .taken call, challenge =>
      ∃ sender input,
        server.calls.lookup call = some (.taken sender input (some challenge))

def Authorized (server : Server) (place : Place) : Prop :=
  ∃ call clock signature accountId requestId authorizedAt,
    place = .taken call ∧
      .answered call clock
        (.authorized signature accountId requestId authorizedAt) ∈
          server.history

def Live (server : Server) : Set Place :=
  { place | (∃ challenge, server.Holds place challenge) ∨
      server.Authorized place }

/-- The challenge call behind every place: the places in use have distinct
ones, and an authorization follows what its call issued. -/
structure Matches (server : Server) (source : Place → ℕ) : Prop where
  holds : ∀ place challenge, server.Holds place challenge →
    .issued (source place) challenge ∈ server.history
  injOn : Set.InjOn source server.Live
  authorized : ∀ call clock signature accountId requestId authorizedAt,
    .answered call clock
        (.authorized signature accountId requestId authorizedAt) ∈
      server.history →
    ∃ challenge,
      List.Sublist
        [.issued (source (.taken call)) challenge,
          .answered call clock
            (.authorized signature accountId requestId authorizedAt)]
        server.history ∧
      challenge.accountId = accountId ∧ challenge.requestId = requestId ∧
      clock ≤ challenge.expiresAt

theorem initial_matches (challengeTTL clock : ℤ) (source : Place → ℕ) :
    (initial challengeTTL clock).Matches source where
  holds := by
    intro place challenge hholds
    cases place <;> simp [initial, Holds] at hholds
  injOn := by
    intro place hplace
    rcases hplace with ⟨challenge, hholds⟩ | hauthorized
    · cases place <;> simp [initial, Holds] at hholds
    · simp [initial, Authorized] at hauthorized
  authorized := by simp [initial]

theorem Matches.live_issued
    {source : Place → ℕ} {place : Place}
    (hmatches : server.Matches source) (hlive : place ∈ server.Live) :
    ∃ challenge, .issued (source place) challenge ∈ server.history := by
  rcases hlive with ⟨challenge, hholds⟩ |
    ⟨call, clock, signature, accountId, requestId, authorizedAt, rfl, hmem⟩
  · exact ⟨challenge, hmatches.holds place challenge hholds⟩
  · obtain ⟨challenge, hsub, -⟩ := hmatches.authorized _ _ _ _ _ _ hmem
    exact ⟨challenge, hsub.subset (List.mem_cons_self ..)⟩

/-- A turn that only moves challenges: what is at a place now was at its
origin before, and what the turn authorizes was held by its call. -/
theorem Matches.relocate
    {source : Place → ℕ} (hmatches : server.Matches source)
    (origin : Place → Place) (events : List Event)
    (hholds : ∀ place challenge, next.Holds place challenge →
      server.Holds (origin place) challenge)
    (hinj : Set.InjOn origin next.Live)
    (hspent : ∀ place, server.Authorized place → origin place = place)
    (hhistory : next.history = server.history ++ events)
    (hevents : ∀ call clock signature accountId requestId authorizedAt,
      .answered call clock
          (.authorized signature accountId requestId authorizedAt) ∈ events →
      origin (.taken call) = .taken call ∧
      ∃ challenge, server.Holds (.taken call) challenge ∧
        challenge.accountId = accountId ∧
        challenge.requestId = requestId ∧ clock ≤ challenge.expiresAt) :
    next.Matches (source ∘ origin) where
  holds := by
    intro place challenge hnext
    rw [hhistory]
    exact List.mem_append_left _
      (hmatches.holds (origin place) challenge
        (hholds place challenge hnext))
  injOn := by
    apply hmatches.injOn.comp hinj
    rintro place (⟨challenge, hnext⟩ |
      ⟨call, clock, signature, accountId, requestId, authorizedAt, rfl, hmem⟩)
    · exact Or.inl ⟨challenge, hholds place challenge hnext⟩
    · rw [hhistory, List.mem_append] at hmem
      rcases hmem with hold | hnew
      · have hauthorized : server.Authorized (.taken call) :=
          ⟨call, clock, signature, accountId, requestId, authorizedAt, rfl,
            hold⟩
        rw [hspent _ hauthorized]
        exact Or.inr hauthorized
      · obtain ⟨hsame, challenge, hheld, -⟩ := hevents _ _ _ _ _ _ hnew
        rw [hsame]
        exact Or.inl ⟨challenge, hheld⟩
  authorized := by
    intro call clock signature accountId requestId authorizedAt hmem
    rw [hhistory, List.mem_append] at hmem
    rw [hhistory, Function.comp_apply]
    rcases hmem with hold | hnew
    · obtain ⟨challenge, hsub, hfields⟩ :=
        hmatches.authorized _ _ _ _ _ _ hold
      rw [hspent _ ⟨call, clock, signature, accountId, requestId,
        authorizedAt, rfl, hold⟩]
      exact ⟨challenge, hsub.trans (List.sublist_append_left _ _), hfields⟩
    · obtain ⟨hsame, challenge, hheld, hfields⟩ := hevents _ _ _ _ _ _ hnew
      refine ⟨challenge, ?_, hfields⟩
      rw [hsame]
      exact (List.singleton_sublist.mpr
        (hmatches.holds _ _ hheld)).append (List.singleton_sublist.mpr hnew)

/-- A turn that leaves every challenge where it is, or drops it. -/
theorem Matches.frame
    {source : Place → ℕ} (hmatches : server.Matches source)
    (events : List Event)
    (hholds : ∀ place challenge, next.Holds place challenge →
      server.Holds place challenge)
    (hhistory : next.history = server.history ++ events)
    (hevents : ∀ call clock signature accountId requestId authorizedAt,
      .answered call clock
          (.authorized signature accountId requestId authorizedAt) ∉ events) :
    next.Matches source := by
  apply hmatches.relocate id events hholds (Set.injOn_id _)
    (fun _ _ => rfl) hhistory
  intro call clock signature accountId requestId authorizedAt hmem
  exact absurd hmem (hevents _ _ _ _ _ _)

theorem Matches.enter
    {source : Place → ℕ} {arrival : Event} {stage : Stage}
    (hmatches : server.Matches source) (harrival : arrival.IsArrival)
    (hstage : ∀ sender input challenge,
      stage ≠ .taken sender input (some challenge)) :
    (server.enter arrival stage).Matches source := by
  apply hmatches.frame [arrival]
  · intro place challenge hholds
    cases place with
    | pending requestId => exact hholds
    | taken call =>
        obtain ⟨sender, input, hlookup⟩ := hholds
        refine ⟨sender, input, ?_⟩
        grind [Server.enter, KeyedMap.lookup_insert_eq]
  · rfl
  · intro call clock signature accountId requestId authorizedAt hmem
    rw [List.mem_singleton] at hmem
    subst hmem
    exact harrival

theorem Matches.refuse
    {source : Place → ℕ} {arrival : Event}
    (hmatches : server.Matches source) (harrival : arrival.IsArrival)
    (payload : ApiError) :
    (server.refuse arrival payload).Matches source := by
  apply hmatches.frame [arrival,
    .answered server.nextCall server.clock (.error payload)]
  · intro place challenge hholds
    cases place <;> exact hholds
  · rfl
  · intro call clock signature accountId requestId authorizedAt hmem
    cases arrival <;> simp_all [Event.IsArrival]

/-- A turn that answers a call: an authorization is for the challenge that
the call took. -/
theorem Matches.answer
    {source : Place → ℕ} {call : ℕ} {clock : ℤ} {answer : Answer}
    (hmatches : server.Matches source)
    (hanswer : ∀ signature accountId requestId authorizedAt,
      answer = .authorized signature accountId requestId authorizedAt →
      ∃ challenge, server.Holds (.taken call) challenge ∧
        challenge.accountId = accountId ∧
        challenge.requestId = requestId ∧ clock ≤ challenge.expiresAt) :
    (server.answer call clock answer).Matches source := by
  apply hmatches.relocate id [.answered call clock answer]
  · intro place challenge hholds
    cases place with
    | pending requestId => exact hholds
    | taken other =>
        obtain ⟨sender, input, hlookup⟩ := hholds
        refine ⟨sender, input, ?_⟩
        grind [Server.answer, KeyedMap.lookup_erase_eq]
  · exact Set.injOn_id _
  · exact fun _ _ => rfl
  · rfl
  · intro other instant signature accountId requestId authorizedAt hmem
    simp only [List.mem_singleton, Event.answered.injEq] at hmem
    obtain ⟨rfl, rfl, hauthorized⟩ := hmem
    exact ⟨rfl, hanswer _ _ _ _ hauthorized.symm⟩

/-- An injective choice stays so when a value is chosen that no other place
has. -/
theorem injOn_update
    {source : Place → ℕ} {places : Set Place} {moved : Place} {call : ℕ}
    (hinj : Set.InjOn source (places \ {moved}))
    (hnew : ∀ place ∈ places \ {moved}, source place ≠ call) :
    Set.InjOn (Function.update source moved call) places := by
  intro first hfirst second hsecond hsame
  by_cases hone : first = moved
  · by_cases htwo : second = moved
    · rw [hone, htwo]
    · rw [hone, Function.update_self, Function.update_of_ne htwo] at hsame
      exact absurd hsame.symm (hnew second ⟨hsecond, htwo⟩)
  · by_cases htwo : second = moved
    · rw [htwo, Function.update_self, Function.update_of_ne hone] at hsame
      exact absurd hsame (hnew first ⟨hfirst, hone⟩)
    · rw [Function.update_of_ne hone, Function.update_of_ne htwo] at hsame
      exact hinj ⟨hfirst, hone⟩ ⟨hsecond, htwo⟩ hsame

theorem holds_store
    {place : Place} {call : ℕ} {challenge other : SignatureChallenge}
    (hnext : (server.store call challenge).Holds place other) :
    (place = .pending challenge.requestId ∧ other = challenge) ∨
      (place ≠ .pending challenge.requestId ∧ server.Holds place other) := by
  cases place with
  | pending requestId =>
      simp only [Holds, Server.store, KeyedMap.lookup_insert_eq] at hnext
      split_ifs at hnext with hid
      · exact Or.inl ⟨by rw [hid], (Option.some.inj hnext).symm⟩
      · exact Or.inr ⟨by simpa using hid, hnext⟩
  | taken taker =>
      obtain ⟨sender, input, hlookup⟩ := hnext
      refine Or.inr ⟨by simp, sender, input, ?_⟩
      grind [Server.store, KeyedMap.lookup_insert_eq]

theorem live_store
    {call : ℕ} {challenge : SignatureChallenge} :
    (server.store call challenge).Live \ {.pending challenge.requestId} ⊆
      server.Live := by
  rintro place ⟨⟨other, hnext⟩ | hauthorized, hne⟩
  · rcases holds_store hnext with ⟨heq, -⟩ | ⟨-, hold⟩
    · exact absurd heq hne
    · exact Or.inl ⟨other, hold⟩
  · refine Or.inr ?_
    simpa [Authorized, Server.store] using hauthorized

theorem Matches.store
    {source : Place → ℕ} {call : ℕ} {challenge : SignatureChallenge}
    (hmatches : server.Matches source) (hnumbered : server.Numbered)
    (hcall : server.calls.lookup call = some (.issuing challenge)) :
    (server.store call challenge).Matches
      (Function.update source (.pending challenge.requestId) call) := by
  have hnew : ∀ place ∈ server.Live, source place ≠ call := by
    intro place hplace heq
    obtain ⟨other, hmem⟩ := hmatches.live_issued hplace
    rw [heq] at hmem
    exact hnumbered.not_issued call challenge other hcall hmem
  constructor
  · intro place other hnext
    rcases holds_store hnext with ⟨rfl, rfl⟩ | ⟨hne, hold⟩
    · simp [Server.store]
    · rw [Function.update_of_ne hne]
      exact List.mem_append_left _ (hmatches.holds place other hold)
  · apply injOn_update
    · exact hmatches.injOn.mono live_store
    · exact fun place hplace => hnew place (live_store hplace)
  · intro other clock signature accountId requestId authorizedAt hmem
    have hold : .answered other clock
        (.authorized signature accountId requestId authorizedAt) ∈
          server.history := by
      simpa [Server.store] using hmem
    obtain ⟨found, hsub, hfields⟩ := hmatches.authorized _ _ _ _ _ _ hold
    refine ⟨found, ?_, hfields⟩
    rw [Function.update_of_ne (by simp)]
    exact hsub.trans (List.sublist_append_left _ _)

theorem Matches.take
    {source : Place → ℕ} {call : ℕ} {sender : String} {input : ConfirmInput}
    (hmatches : server.Matches source) (hnumbered : server.Numbered)
    (hcall : server.calls.lookup call = some (.confirming sender input)) :
    ∃ source', (server.take call sender input).Matches source' := by
  have hunspent : ¬ server.Authorized (.taken call) := by
    rintro ⟨other, clock, signature, accountId, requestId, authorizedAt,
      heq, hmem⟩
    obtain rfl := Place.taken.inj heq
    exact hnumbered.not_answered _ _ _ _ hcall hmem
  refine ⟨_, hmatches.relocate
    (Function.update id (.taken call) (.pending input.requestId)) [] ?_ ?_ ?_
    (List.append_nil _).symm (by simp)⟩
  · intro place challenge hnext
    cases place with
    | pending requestId =>
        have hlookup : server.challenges.lookup requestId =
            some challenge := by
          simp only [Holds, Server.take, KeyedMap.lookup_erase_eq] at hnext
          grind
        rw [Function.update_of_ne (by simp)]
        exact hlookup
    | taken other =>
        obtain ⟨_, _, hlookup⟩ := hnext
        simp only [Server.take, KeyedMap.lookup_insert_eq] at hlookup
        split_ifs at hlookup with hother
        · subst hother
          rw [Function.update_self]
          simp only [Option.some.injEq, Stage.taken.injEq] at hlookup
          exact hlookup.2.2
        · rw [Function.update_of_ne (by simpa using hother)]
          exact ⟨_, _, hlookup⟩
  · have hgone : .pending input.requestId ∉
        (server.take call sender input).Live := by
      rintro (⟨challenge, hnext⟩ | ⟨_, _, _, _, _, _, heq, -⟩)
      · simp [Holds, Server.take] at hnext
      · cases heq
    intro first hfirst second hsecond hsame
    simp only [Function.update_apply, id_eq] at hsame
    grind
  · intro place hauthorized
    apply Function.update_of_ne
    rintro rfl
    exact hunspent hauthorized

theorem Matches.withClock
    {source : Place → ℕ}
    (hmatches : server.Matches source) (clock : ℤ) :
    ({ server with clock := clock } : Server).Matches source := by
  apply hmatches.frame []
  · intro place challenge hholds
    cases place <;> exact hholds
  · simp
  · simp

theorem Matches.moves
    {source : Place → ℕ} {turn : Turn}
    (hmatches : server.Matches source) (hnumbered : server.Numbered)
    (hkeyed : server.Keyed) (hmoves : server.Moves turn next) :
    ∃ source', next.Matches source' := by
  cases hmoves with
  | refusedChallenge hnew =>
      exact ⟨source, (hmatches.withClock _).refuse (by exact trivial) _⟩
  | challenge hnew =>
      exact ⟨source,
        (hmatches.withClock _).enter (by exact trivial) (by simp)⟩
  | store hcall => exact ⟨_, hmatches.store hnumbered hcall⟩
  | respond hcall => exact ⟨source, hmatches.answer (by simp)⟩
  | refusedConfirm hparse =>
      exact ⟨source, hmatches.refuse (by exact trivial) _⟩
  | confirm hparse =>
      exact ⟨source, hmatches.enter (by exact trivial) (by simp)⟩
  | take hcall => exact hmatches.take hnumbered hcall
  | @check call now authorizedAt sender input found hcall =>
      refine ⟨source, (hmatches.withClock authorizedAt).answer ?_⟩
      intro signature accountId requestId instant hanswer
      obtain ⟨⟨challenge, rfl, haccount, hclock, -⟩, -, rfl, rfl, -⟩ :=
        checkConfirm_eq_authorized.mp hanswer
      exact ⟨challenge, ⟨sender, input, hcall⟩, haccount,
        hkeyed.taken _ _ _ _ hcall, hclock⟩

end Server

def Event.issuedCall : Event → Option ℕ
  | .issued call _ => some call
  | _ => none

def Event.authorizedCall : Event → Option ℕ
  | .answered call _ (.authorized ..) => some call
  | _ => none

theorem Event.issuedCall_eq_some
    {event : Event} {call : ℕ} :
    event.issuedCall = some call ↔ ∃ challenge, event = .issued call challenge := by
  cases event <;> simp [issuedCall]

theorem Event.authorizedCall_eq_some
    {event : Event} {call : ℕ} :
    event.authorizedCall = some call ↔
      ∃ clock signature accountId requestId authorizedAt,
        event = .answered call clock
          (.authorized signature accountId requestId authorizedAt) := by
  cases event with
  | answered other clock answer => cases answer <;> simp [authorizedCall]
  | _ => simp [authorizedCall]

/-- Every authorization follows the issue of a challenge for its account and
request id that had not expired when the confirm read the clock, and `source`
gives each authorization a challenge call of its own. -/
theorem authorizations_match_issued_challenges
    {challengeTTL clock : ℤ} {turns : List Turn} {server : Server}
    (hrun : exec Server.step (.initial challengeTTL clock) turns =
      some server) :
    ∃ source : ℕ → ℕ,
      (server.history.filterMap Event.issuedCall).Nodup ∧
      ((server.history.filterMap Event.authorizedCall).map source).Nodup ∧
      ∀ call now signature accountId requestId authorizedAt,
        .answered call now
            (.authorized signature accountId requestId authorizedAt) ∈
          server.history →
        ∃ challenge,
          List.Sublist
            [.issued (source call) challenge,
              .answered call now
                (.authorized signature accountId requestId authorizedAt)]
            server.history ∧
          challenge.accountId = accountId ∧
          challenge.requestId = requestId ∧
          now ≤ challenge.expiresAt := by
  have hinv : server.Numbered ∧ server.Keyed ∧
      ∃ source, server.Matches source := by
    apply invariant_of_step
      (fun server => server.Numbered ∧ server.Keyed ∧
        ∃ source, server.Matches source) ?_ ?_ hrun
    · rintro state turn next ⟨hnumbered, hkeyed, source, hmatches⟩ hstep
      have hmoves := Server.moves_of_step hstep
      exact ⟨hnumbered.moves hmoves, hkeyed.moves hmoves,
        hmatches.moves hnumbered hkeyed hmoves⟩
    · exact ⟨Server.initial_numbered _ _, Server.initial_keyed _ _,
        fun _ => 0, Server.initial_matches _ _ _⟩
  obtain ⟨hnumbered, -, source, hmatches⟩ := hinv
  refine ⟨fun call => source (.taken call), ?_, ?_, hmatches.authorized⟩
  · rw [List.Nodup, List.pairwise_filterMap]
    apply hnumbered.once.imp
    rintro event later honce call hcall other hother rfl
    obtain ⟨challenge, rfl⟩ := Event.issuedCall_eq_some.mp hcall
    obtain ⟨challenge', rfl⟩ := Event.issuedCall_eq_some.mp hother
    exact honce rfl
  · rw [List.Nodup, List.pairwise_map, List.pairwise_filterMap]
    apply hnumbered.once.imp_of_mem
    intro event later hevent hlater honce call hcall other hother hsame
    obtain ⟨clock, signature, accountId, requestId, authorizedAt, rfl⟩ :=
      Event.authorizedCall_eq_some.mp hcall
    obtain ⟨clock', signature', accountId', requestId', authorizedAt', rfl⟩ :=
      Event.authorizedCall_eq_some.mp hother
    have hplace : Place.taken call = Place.taken other :=
      hmatches.injOn (Or.inr ⟨_, _, _, _, _, _, rfl, hevent⟩)
        (Or.inr ⟨_, _, _, _, _, _, rfl, hlater⟩) hsame
    exact honce (Place.taken.inj hplace)

def post {Body : Type} (body : Body) : Request Body := ⟨"POST", .ok body⟩

def aliceSigns : Request ConfirmInput :=
  post ⟨"alice", "req_7", "req_7.alice.signature"⟩

def aliceConfirms : List Turn :=
  [.challenge 7 (post ⟨"alice"⟩), .store 0, .respond 0,
    .challenge 8 (post ⟨"bob"⟩), .store 1, .respond 1,
    .confirm "alice" aliceSigns, .take 2, .check 2 9 9]

theorem authorizations_match_in_aliceConfirms :
    ∃ server source,
      exec Server.step (.initial 300 0) aliceConfirms = some server ∧
      ((server.history.filterMap Event.authorizedCall).map source).Nodup ∧
      ∃ challenge,
        List.Sublist
          [.issued (source 2) challenge,
            .answered 2 9
              (.authorized "req_7.alice.signature" "alice" "req_7" 9)]
          server.history ∧
        challenge.accountId = "alice" ∧ challenge.requestId = "req_7" ∧
        9 ≤ challenge.expiresAt := by
  obtain ⟨server, hrun, hmem⟩ : ∃ server,
      exec Server.step (.initial 300 0) aliceConfirms = some server ∧
      .answered 2 9 (.authorized "req_7.alice.signature" "alice" "req_7" 9) ∈
        server.history :=
    ⟨_, rfl, by decide⟩
  obtain ⟨source, -, hnodup, hmatch⟩ :=
    authorizations_match_issued_challenges hrun
  exact ⟨server, source, hrun, hnodup, hmatch _ _ _ _ _ _ hmem⟩

end SoulonWallet.Api
