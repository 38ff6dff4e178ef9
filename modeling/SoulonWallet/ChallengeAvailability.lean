import SoulonWallet.ChallengeSafety
import SoulonWallet.GoStrings

/-!
# A challenge stays available to its account

A confirm takes the challenge under its request id before it compares the
account, and a new challenge replaces the one that has its id.  A challenge is
still there for the account it was issued to as long as every confirm that
takes a challenge was sent by the account of that challenge and no challenge
replaces a different one.
-/

namespace SoulonWallet.Api

open LabelledRun
open Chain (trimSpace)

/-! ## Trimming a signature -/

theorem expectedPrefix_head (accountId : String) (now : ℤ) :
    ∃ tail,
      (expectedPrefix accountId (requestIdAt now)).toList = 'r' :: tail := by
  simp [expectedPrefix, requestIdAt, String.toList_append]

theorem expectedPrefix_last (accountId requestId : String) :
    ∃ init, (expectedPrefix accountId requestId).toList = init ++ ['.'] := by
  rw [expectedPrefix, String.toList_append]
  exact ⟨_, rfl⟩

theorem hasPrefix_trimSpace_signature
    {accountId signature : String} {now : ℤ}
    (hsigned : hasPrefix signature
      (expectedPrefix accountId (requestIdAt now))) :
    hasPrefix (trimSpace signature)
      (expectedPrefix accountId (requestIdAt now)) := by
  obtain ⟨tail, hhead⟩ := expectedPrefix_head accountId now
  obtain ⟨init, hlast⟩ := expectedPrefix_last accountId (requestIdAt now)
  exact Chain.prefix_trimSpace hsigned hhead (by decide) hlast (by decide)

/-! ## Confirms that ought to succeed -/

def Names (request : Request ConfirmInput) (requestId : String) : Prop :=
  ∃ input, request.body = .ok input ∧
    trimSpace input.requestId = requestId

/-- A confirm of the challenge by its account, with a signature of the form
the server asks for. -/
def Confirms (request : Request ConfirmInput)
    (challenge : SignatureChallenge) : Prop :=
  request.method = "POST" ∧
    ∃ input, request.body = .ok input ∧
      trimSpace input.accountId = challenge.accountId ∧
      trimSpace input.requestId = challenge.requestId ∧
      hasPrefix input.signature
        (expectedPrefix challenge.accountId challenge.requestId)

/-- The account has sent no other confirm of the challenge. -/
def Server.OnlyConfirm (server : Server) (challenge : SignatureChallenge)
    (call : ℕ) : Prop :=
  ∀ other request,
    .received other challenge.accountId request ∈ server.history →
      Names request challenge.requestId → other = call

/-- Whoever was returned a challenge and confirms it in time, as the only
confirm of it that the account sends, is authorized. -/
def Server.Available (server : Server) : Prop :=
  ∀ issuer returnedAt challenge call request now answer,
    List.Sublist
      [.answered issuer returnedAt (.challenge challenge),
        .received call challenge.accountId request,
        .answered call now answer]
      server.history →
    Confirms request challenge → now ≤ challenge.expiresAt →
    server.OnlyConfirm challenge call →
    ∃ signature authorizedAt,
      answer = .authorized signature challenge.accountId
        challenge.requestId authorizedAt

/-- A challenge is only taken by a confirm of its account, and is not
replaced by a different one. -/
def Server.Respects (server : Server) : Turn → Prop
  | .store call =>
      ∀ challenge held,
        server.calls.lookup call = some (.issuing challenge) →
        server.challenges.lookup challenge.requestId = some held →
        held = challenge
  | .take call =>
      ∀ sender input held,
        server.calls.lookup call = some (.confirming sender input) →
        server.challenges.lookup input.requestId = some held →
        held.accountId = sender
  | _ => True

theorem Server.respects_store_iff
    {server : Server} {call : ℕ} {challenge : SignatureChallenge}
    (hcall : server.calls.lookup call = some (.issuing challenge)) :
    (∀ held ∈ server.challenges.lookup challenge.requestId,
        held = challenge) ↔
      server.Respects (.store call) := by
  constructor
  · intro hheld issuing held hissuing hlookup
    rw [hcall, Option.some.injEq, Stage.issuing.injEq] at hissuing
    subst hissuing
    exact hheld held hlookup
  · intro hrespects held hlookup
    exact hrespects challenge held hcall hlookup

theorem Server.respects_take_iff
    {server : Server} {call : ℕ} {sender : String} {input : ConfirmInput}
    (hcall : server.calls.lookup call = some (.confirming sender input)) :
    (∀ held ∈ server.challenges.lookup input.requestId,
        held.accountId = sender) ↔
      server.Respects (.take call) := by
  constructor
  · intro hheld sender' input' held hconfirming hlookup
    rw [hcall, Option.some.injEq, Stage.confirming.injEq] at hconfirming
    obtain ⟨rfl, rfl⟩ := hconfirming
    exact hheld held hlookup
  · intro hrespects held hlookup
    exact hrespects sender input held hcall hlookup

theorem Server.respects_store_of_ne
    {server : Server} {call : ℕ} {stage : Option Stage}
    (hcall : server.calls.lookup call = stage)
    (hstage : ∀ challenge, stage ≠ some (.issuing challenge)) :
    server.Respects (.store call) := by
  intro challenge held hissuing
  exact absurd (hcall.symm.trans hissuing) (hstage challenge)

theorem Server.respects_take_of_ne
    {server : Server} {call : ℕ} {stage : Option Stage}
    (hcall : server.calls.lookup call = stage)
    (hstage : ∀ sender input, stage ≠ some (.confirming sender input)) :
    server.Respects (.take call) := by
  intro sender input held hconfirming
  exact absurd (hcall.symm.trans hconfirming) (hstage sender input)

instance (server : Server) : (turn : Turn) → Decidable (server.Respects turn)
  | .store call =>
      match hcall : server.calls.lookup call with
      | some (.issuing _) =>
          decidable_of_iff _ (Server.respects_store_iff hcall)
      | some (.issued _) | some (.confirming _ _) | some (.taken _ _ _)
      | none => .isTrue (Server.respects_store_of_ne hcall nofun)
  | .take call =>
      match hcall : server.calls.lookup call with
      | some (.confirming _ _) =>
          decidable_of_iff _ (Server.respects_take_iff hcall)
      | some (.issuing _) | some (.issued _) | some (.taken _ _ _)
      | none => .isTrue (Server.respects_take_of_ne hcall nofun)
  | .challenge _ _ | .respond _ | .confirm _ _ | .check _ _ _ =>
      .isTrue trivial

theorem parseConfirm_eq_ok
    {request : Request ConfirmInput} {input : ConfirmInput} :
    parseConfirm request = .ok input ↔
      request.method = "POST" ∧ ∃ raw, request.body = .ok raw ∧
        input = raw.trimmed ∧ input.accountId ≠ "" ∧
        input.requestId ≠ "" ∧ input.signature ≠ "" := by
  rw [parseConfirm]
  split_ifs with hmethod
  · simp [hmethod]
  · push Not at hmethod
    cases hbody : request.body with
    | error message => simp
    | ok raw =>
        simp only [hmethod, true_and, Except.ok.injEq, exists_eq_left']
        split_ifs with hempty
        · simp only [false_iff]
          grind
        · push Not at hempty
          grind

theorem names_of_parseConfirm
    {request : Request ConfirmInput} {input : ConfirmInput}
    (hparse : parseConfirm request = .ok input) :
    Names request input.requestId := by
  obtain ⟨-, raw, hbody, rfl, -⟩ := parseConfirm_eq_ok.mp hparse
  exact ⟨raw, hbody, rfl⟩

/-- The shape of what `newChallenge` builds. -/
def SignatureChallenge.Issuable (challenge : SignatureChallenge) : Prop :=
  challenge.accountId ≠ "" ∧ ∃ now, challenge.requestId = requestIdAt now

theorem newChallenge_issuable
    {challengeTTL now : ℤ} {request : Request ChallengeInput}
    {challenge : SignatureChallenge}
    (hnew : newChallenge challengeTTL now request = .ok challenge) :
    challenge.Issuable := by
  simp only [newChallenge] at hnew
  split_ifs at hnew
  split at hnew
  · simp at hnew
  · split_ifs at hnew with haccount
    obtain rfl := Except.ok.inj hnew
    exact ⟨haccount, now, rfl⟩

theorem Confirms.parse
    {request : Request ConfirmInput} {challenge : SignatureChallenge}
    (hconfirms : Confirms request challenge)
    (hissuable : challenge.Issuable) :
    ∃ input, parseConfirm request = .ok input ∧
      input.accountId = challenge.accountId ∧
      input.requestId = challenge.requestId ∧
      hasPrefix input.signature
        (expectedPrefix challenge.accountId challenge.requestId) := by
  obtain ⟨hmethod, raw, hbody, haccount, hrequest, hsigned⟩ := hconfirms
  obtain ⟨hnonempty, now, hid⟩ := hissuable
  rw [hid] at hsigned
  have htrimmed := hasPrefix_trimSpace_signature hsigned
  refine ⟨raw.trimmed, ?_, haccount, hrequest, by rwa [hid]⟩
  refine parseConfirm_eq_ok.mpr ⟨hmethod, raw, hbody, rfl, ?_, ?_, ?_⟩
  · rwa [ConfirmInput.trimmed, haccount]
  · simp [ConfirmInput.trimmed, hrequest, hid, requestIdAt]
  · intro hempty
    obtain ⟨tail, hhead⟩ := expectedPrefix_head challenge.accountId now
    rw [hasPrefix, hhead, show trimSpace raw.signature = "" from hempty]
      at htrimmed
    simp at htrimmed

theorem checkConfirm_ne_challenge
    (input : ConfirmInput) (found : Option SignatureChallenge)
    (now authorizedAt : ℤ) (challenge : SignatureChallenge) :
    checkConfirm input found now authorizedAt ≠ .challenge challenge := by
  unfold checkConfirm
  split
  · simp
  · split_ifs <;> simp

namespace Server

variable {server next : Server}

/-- The calls in flight agree with what the history says of them. -/
structure Recorded (server : Server) : Prop where
  stage_of_received : ∀ call sender request stage,
    .received call sender request ∈ server.history →
    server.calls.lookup call = some stage →
    ∃ input, parseConfirm request = .ok input ∧
      (stage = .confirming sender input ∨
        ∃ found, stage = .taken sender input found)
  received_of_confirming : ∀ call sender input,
    server.calls.lookup call = some (.confirming sender input) →
    ∃ request, .received call sender request ∈ server.history ∧
      parseConfirm request = .ok input
  issued_of_stage : ∀ call challenge,
    server.calls.lookup call = some (.issued challenge) →
    .issued call challenge ∈ server.history
  issued_of_answered : ∀ call clock challenge,
    .answered call clock (.challenge challenge) ∈ server.history →
    .issued call challenge ∈ server.history
  issuable_of_stage : ∀ call challenge,
    server.calls.lookup call = some (.issuing challenge) →
    challenge.Issuable
  issuable_of_issued : ∀ call challenge,
    .issued call challenge ∈ server.history → challenge.Issuable

theorem initial_recorded (challengeTTL clock : ℤ) :
    (initial challengeTTL clock).Recorded := by
  constructor <;> simp [initial]

theorem Recorded.withClock
    (hrecorded : server.Recorded) (clock : ℤ) :
    ({ server with clock := clock } : Server).Recorded :=
  ⟨hrecorded.stage_of_received, hrecorded.received_of_confirming,
    hrecorded.issued_of_stage, hrecorded.issued_of_answered,
    hrecorded.issuable_of_stage, hrecorded.issuable_of_issued⟩

theorem Recorded.moves
    {turn : Turn}
    (hrecorded : server.Recorded) (hnumbered : server.Numbered)
    (hmoves : server.Moves turn next) : next.Recorded := by
  have hlt := hnumbered.event_lt
  have hcallLt := hnumbered.call_lt
  obtain ⟨hstage, hreceived, hissued, hanswered, hissuing, hissuable⟩ :=
    hrecorded
  cases hmoves with
  | refusedChallenge hnew =>
      constructor <;> grind [Server.refuse, Event.call]
  | refusedConfirm hparse =>
      constructor <;> grind [Server.refuse, Event.call]
  | challenge hnew =>
      have hnewIssuable := newChallenge_issuable hnew
      constructor <;>
        grind [Server.enter, KeyedMap.lookup_insert_eq, Event.call]
  | confirm hparse =>
      constructor <;>
        grind [Server.enter, KeyedMap.lookup_insert_eq, Event.call]
  | store hcall =>
      constructor <;> grind [Server.store, KeyedMap.lookup_insert_eq]
  | respond hcall =>
      constructor <;> grind [Server.answer, KeyedMap.lookup_erase_eq]
  | check hcall =>
      constructor <;> grind [Server.answer, KeyedMap.lookup_erase_eq, checkConfirm_ne_challenge]
  | take hcall =>
      constructor <;> grind [Server.take, KeyedMap.lookup_insert_eq]

/-- Every issued challenge is still there, or a confirm of its account has
passed. -/
def Kept (server : Server) : Prop :=
  ∀ issuer challenge, .issued issuer challenge ∈ server.history →
    server.challenges.lookup challenge.requestId = some challenge ∨
      ∃ call request,
        .received call challenge.accountId request ∈ server.history ∧
        Names request challenge.requestId ∧
        ∀ sender input,
          server.calls.lookup call ≠ some (.confirming sender input)

theorem Kept.moves
    {turn : Turn}
    (hkept : server.Kept) (hnumbered : server.Numbered)
    (hrecorded : server.Recorded) (hrespects : server.Respects turn)
    (hmoves : server.Moves turn next) : next.Kept := by
  have hlt := hnumbered.event_lt
  have hreceived := hrecorded.received_of_confirming
  unfold Kept at hkept ⊢
  cases hmoves with
  | refusedChallenge hnew | refusedConfirm hparse =>
      grind [Server.refuse]
  | challenge hnew | confirm hparse =>
      grind [Server.enter, KeyedMap.lookup_insert_eq, Event.call]
  | store hcall =>
      grind [Server.store, KeyedMap.lookup_insert_eq, Respects]
  | respond hcall | check hcall =>
      grind [Server.answer, KeyedMap.lookup_erase_eq]
  | take hcall =>
      grind [Server.take, KeyedMap.lookup_insert_eq,
        KeyedMap.lookup_erase_eq, Respects, names_of_parseConfirm]

theorem OnlyConfirm.of_append
    {challenge : SignatureChallenge} {call : ℕ} {events : List Event}
    (honly : next.OnlyConfirm challenge call)
    (hhistory : next.history = server.history ++ events) :
    server.OnlyConfirm challenge call := by
  intro other request hmem hnames
  apply honly other request _ hnames
  rw [hhistory]
  exact List.mem_append_left _ hmem

/-- The only confirm of a challenge, received after its return, has taken
it. -/
def Found (server : Server) : Prop :=
  ∀ issuer returnedAt challenge call request input found,
    List.Sublist
      [.answered issuer returnedAt (.challenge challenge),
        .received call challenge.accountId request]
      server.history →
    server.calls.lookup call =
      some (.taken challenge.accountId input found) →
    input.requestId = challenge.requestId →
    server.OnlyConfirm challenge call →
    found = some challenge

/-- A turn under which no call takes anything, and which receives nothing
from a call that has. -/
theorem Found.frame
    (hfound : server.Found) (events : List Event)
    (hhistory : next.history = server.history ++ events)
    (htaken : ∀ call sender input found,
      next.calls.lookup call = some (.taken sender input found) →
      server.calls.lookup call = some (.taken sender input found) ∧
        ∀ sender request, .received call sender request ∉ events) :
    next.Found := by
  intro issuer returnedAt challenge call request input found hsub hlookup hid
    honly
  obtain ⟨hold, hnot⟩ := htaken call _ input found hlookup
  rw [hhistory] at hsub
  have hbefore := sublist_of_last_notMem
    [Event.answered issuer returnedAt (.challenge challenge)] hsub
    (hnot _ _)
  exact hfound issuer returnedAt challenge call request input found hbefore
    hold hid (honly.of_append hhistory)

theorem Found.take
    {call : ℕ} {sender : String} {input : ConfirmInput}
    (hfound : server.Found) (hkept : server.Kept)
    (hrecorded : server.Recorded)
    (hcall : server.calls.lookup call = some (.confirming sender input)) :
    (server.take call sender input).Found := by
  intro issuer returnedAt challenge other request input' found hsub hlookup
    hid honly
  simp only [Server.take, KeyedMap.lookup_insert_eq] at hlookup
  split_ifs at hlookup with hother
  · subst hother
    simp only [Option.some.injEq, Stage.taken.injEq] at hlookup
    obtain ⟨rfl, rfl, rfl⟩ := hlookup
    have hreturned : .answered issuer returnedAt (.challenge challenge) ∈
        server.history :=
      hsub.subset (List.mem_cons_self ..)
    have hissued := hrecorded.issued_of_answered _ _ _ hreturned
    rcases hkept issuer challenge hissued with hthere |
      ⟨taker, request', hmem, hnames, hpassed⟩
    · rw [hid, hthere]
    · obtain rfl := honly taker request' hmem hnames
      exact absurd hcall (hpassed _ _)
  · exact hfound issuer returnedAt challenge other request input' found hsub
      hlookup hid honly

theorem Found.moves
    {turn : Turn}
    (hfound : server.Found) (hnumbered : server.Numbered)
    (hrecorded : server.Recorded) (hkept : server.Kept)
    (hmoves : server.Moves turn next) : next.Found := by
  have hlt := hnumbered.call_lt
  cases hmoves with
  | refusedChallenge hnew | refusedConfirm hparse =>
      apply hfound.frame _ rfl
      grind [Server.refuse]
  | challenge hnew | confirm hparse =>
      apply hfound.frame _ rfl
      grind [Server.enter, KeyedMap.lookup_insert_eq]
  | store hcall =>
      apply hfound.frame _ rfl
      grind [Server.store, KeyedMap.lookup_insert_eq]
  | respond hcall | check hcall =>
      apply hfound.frame _ rfl
      grind [Server.answer, KeyedMap.lookup_erase_eq]
  | take hcall => exact hfound.take hkept hrecorded hcall

/-- Only the event that a turn adds has to be looked at. -/
theorem Available.appended
    {event : Event} (havailable : server.Available)
    (hhistory : next.history = server.history ++ [event])
    (hnew : ∀ issuer returnedAt challenge call request now answer,
      event = .answered call now answer →
      List.Sublist
        [.answered issuer returnedAt (.challenge challenge),
          .received call challenge.accountId request]
        server.history →
      Confirms request challenge → now ≤ challenge.expiresAt →
      server.OnlyConfirm challenge call →
      ∃ signature authorizedAt,
        answer = .authorized signature challenge.accountId
          challenge.requestId authorizedAt) :
    next.Available := by
  intro issuer returnedAt challenge call request now answer hsub
    hconfirms hclock honly
  rw [hhistory] at hsub
  rcases sublist_concat
    [Event.answered issuer returnedAt (.challenge challenge),
      .received call challenge.accountId request] hsub with
    hold | ⟨hlast, hbefore⟩
  · exact havailable issuer returnedAt challenge call request now answer
      hold hconfirms hclock (honly.of_append hhistory)
  · exact hnew issuer returnedAt challenge call request now answer hlast.symm
      hbefore hconfirms hclock (honly.of_append hhistory)

theorem Available.concat
    {call : ℕ} {now : ℤ} {answer : Answer}
    (havailable : server.Available)
    (hhistory : next.history = server.history ++
      [.answered call now answer])
    (hnew : ∀ issuer returnedAt challenge request,
      List.Sublist
        [.answered issuer returnedAt (.challenge challenge),
          .received call challenge.accountId request]
        server.history →
      Confirms request challenge → now ≤ challenge.expiresAt →
      server.OnlyConfirm challenge call →
      ∃ signature authorizedAt,
        answer = .authorized signature challenge.accountId
          challenge.requestId authorizedAt) :
    next.Available := by
  apply havailable.appended hhistory
  intro issuer returnedAt challenge other request instant reply hlast
  obtain ⟨rfl, rfl, rfl⟩ := Event.answered.inj hlast
  exact hnew issuer returnedAt challenge request

theorem Available.same
    {event : Event}
    (havailable : server.Available)
    (hhistory : next.history = server.history ++ [event])
    (hevent : ∀ call now answer, event ≠ .answered call now answer) :
    next.Available := by
  apply havailable.appended hhistory
  intro issuer returnedAt challenge call request now answer hlast
  exact absurd hlast (hevent call now answer)

theorem Available.respond
    {call : ℕ} {issued : SignatureChallenge}
    (havailable : server.Available) (hrecorded : server.Recorded)
    (hcall : server.calls.lookup call = some (.issued issued)) :
    (server.answer call server.clock (.challenge issued)).Available := by
  apply havailable.concat rfl
  intro issuer returnedAt challenge request hsub
  have hreceived : .received call challenge.accountId request ∈
      server.history :=
    hsub.subset (by simp)
  obtain ⟨input, -, hstage | ⟨found, hstage⟩⟩ :=
    hrecorded.stage_of_received _ _ _ _ hreceived hcall
  · cases hstage
  · cases hstage

theorem Available.check
    {call : ℕ} {now authorizedAt clock : ℤ} {sender : String}
    {input : ConfirmInput} {found : Option SignatureChallenge}
    (havailable : server.Available) (hrecorded : server.Recorded)
    (hfound : server.Found)
    (hcall : server.calls.lookup call = some (.taken sender input found)) :
    ({ server with clock := clock }.answer call now
      (checkConfirm input found now authorizedAt)).Available := by
  apply havailable.concat rfl
  intro issuer returnedAt challenge request hsub hconfirms hclock honly
  have hreceived : .received call challenge.accountId request ∈
      server.history :=
    hsub.subset (by simp)
  have hreturned : .answered issuer returnedAt (.challenge challenge) ∈
      server.history :=
    hsub.subset (by simp)
  have hissued := hrecorded.issued_of_answered _ _ _ hreturned
  obtain ⟨parsed, hparse, haccount, hrequest, hsigned⟩ :=
    hconfirms.parse (hrecorded.issuable_of_issued _ _ hissued)
  obtain ⟨input', hparse', hstage⟩ :=
    hrecorded.stage_of_received _ _ _ _ hreceived hcall
  obtain rfl := Except.ok.inj (hparse.symm.trans hparse')
  have htaken : sender = challenge.accountId ∧ input = parsed := by
    grind
  obtain ⟨rfl, rfl⟩ := htaken
  obtain rfl := hfound issuer returnedAt challenge call request input found
    hsub hcall hrequest honly
  refine ⟨input.signature, authorizedAt,
    checkConfirm_eq_authorized.mpr ⟨⟨challenge, rfl, haccount.symm, hclock, ?_⟩,
      rfl, haccount.symm, hrequest.symm, rfl⟩⟩
  rwa [haccount, hrequest]

theorem Available.refuse
    {arrival : Event} {payload : ApiError}
    (havailable : server.Available) (hnumbered : server.Numbered)
    (hrecorded : server.Recorded) (harrival : arrival.IsArrival)
    (hcall : arrival.call = server.nextCall)
    (hparse : ∀ call sender request,
      arrival = .received call sender request →
        parseConfirm request = .error payload) :
    (server.refuse arrival payload).Available := by
  have harrived : ({ server with
      history := server.history ++ [arrival] } : Server).Available := by
    apply havailable.same rfl
    rintro call now answer rfl
    exact harrival
  apply harrived.concat (List.append_cons ..)
  intro issuer returnedAt challenge request hsub hconfirms hclock honly
  rcases sublist_concat [Event.answered issuer returnedAt
    (.challenge challenge)] hsub with hold | ⟨rfl, hreturned⟩
  · have hreceived : .received server.nextCall challenge.accountId request ∈
        server.history :=
      hold.subset (by simp)
    exact absurd (hnumbered.event_lt _ hreceived)
      (lt_irrefl server.nextCall)
  · have hissued := hrecorded.issued_of_answered _ _ _
      (List.singleton_sublist.mp hreturned)
    obtain ⟨input, hok, -⟩ :=
      hconfirms.parse (hrecorded.issuable_of_issued _ _ hissued)
    rw [hparse _ _ _ rfl] at hok
    cases hok

theorem Available.moves
    {turn : Turn}
    (havailable : server.Available) (hnumbered : server.Numbered)
    (hrecorded : server.Recorded) (hfound : server.Found)
    (hmoves : server.Moves turn next) : next.Available := by
  cases hmoves with
  | @refusedChallenge now request payload hnew =>
      have hclocked : ({ server with clock := now } : Server).Available :=
        havailable
      apply hclocked.refuse (hnumbered.withClock now)
        (hrecorded.withClock now)
      · exact trivial
      · rfl
      · simp
  | challenge hnew => exact havailable.same rfl (by simp)
  | store hcall => exact havailable.same rfl (by simp)
  | respond hcall => exact havailable.respond hrecorded hcall
  | refusedConfirm hparse =>
      apply havailable.refuse hnumbered hrecorded
      · exact trivial
      · rfl
      · grind
  | confirm hparse => exact havailable.same rfl (by simp)
  | take hcall => exact havailable
  | check hcall => exact havailable.check hrecorded hfound hcall

structure Orderly (server : Server) : Prop where
  numbered : server.Numbered
  recorded : server.Recorded
  kept : server.Kept
  found : server.Found
  available : server.Available

theorem initial_orderly (challengeTTL clock : ℤ) :
    (initial challengeTTL clock).Orderly where
  numbered := initial_numbered challengeTTL clock
  recorded := initial_recorded challengeTTL clock
  kept := by simp [Kept, initial]
  found := by simp [Found, initial]
  available := by simp [Available, initial]

theorem Orderly.step
    {turn : Turn}
    (horderly : server.Orderly) (hrespects : server.Respects turn)
    (hstep : server.step turn = some next) : next.Orderly := by
  have hmoves := moves_of_step hstep
  obtain ⟨hnumbered, hrecorded, hkept, hfound, havailable⟩ := horderly
  exact
    { numbered := hnumbered.moves hmoves
      recorded := hrecorded.moves hnumbered hmoves
      kept := hkept.moves hnumbered hrecorded hrespects hmoves
      found := hfound.moves hnumbered hrecorded hkept hmoves
      available := havailable.moves hnumbered hrecorded hfound hmoves }

end Server

/-- In a run in which challenges are only taken by their own accounts and
not replaced, every challenge can be confirmed until it expires. -/
theorem challenge_available_of_respectful_run
    {challengeTTL clock : ℤ} {turns : List Turn} {server : Server}
    (hrespects : Guarded Server.step Server.Respects
      (.initial challengeTTL clock) turns)
    (hvisit : Visits Server.step (.initial challengeTTL clock) turns
      server) :
    server.Available := by
  have horderly : server.Orderly :=
    hrespects.invariant_of_visits Server.Orderly
      (fun _ _ _ horderly hguard hstep => horderly.step hguard hstep)
      (Server.initial_orderly challengeTTL clock) hvisit
  exact horderly.available

/-! ## Two runs -/

def aliceChallenge : SignatureChallenge where
  requestId := "req_7"
  accountId := "alice"
  challengeMessage :=
    "Soulon Wallet 授权签名
account=alice
requestId=req_7"
  expiresAt := 307

theorem challenge_available_of_aliceConfirms :
    ∃ server,
      exec Server.step (.initial 300 0) aliceConfirms = some server ∧
      .answered 2 9 (.authorized "req_7.alice.signature" "alice" "req_7" 9) ∈
        server.history ∧
      server.Available := by
  refine ⟨_, rfl, by decide, ?_⟩
  apply challenge_available_of_respectful_run
  · show Guarded Server.step Server.Respects (.initial 300 0) aliceConfirms
    decide
  · exact ⟨aliceConfirms, List.prefix_rfl, rfl⟩

/-- Mallory names the request id of alice. -/
def malloryConfirmsFirst : List Turn :=
  [.challenge 7 (post ⟨"alice"⟩), .store 0, .respond 0,
    .confirm "mallory" (post ⟨"mallory", "req_7", "signature"⟩), .take 1,
    .check 1 8 8, .confirm "alice" aliceSigns, .take 2, .check 2 9 9]

theorem malloryConfirmsFirst_history :
    ∃ server,
      exec Server.step (.initial 300 0) malloryConfirmsFirst =
        some server ∧
      server.history =
        [.requested 0 (post ⟨"alice"⟩), .issued 0 aliceChallenge,
          .answered 0 7 (.challenge aliceChallenge),
          .received 1 "mallory"
            (post ⟨"mallory", "req_7", "signature"⟩),
          .answered 1 8 (.error (badRequest "accountId mismatch")),
          .received 2 "alice" aliceSigns,
          .answered 2 9 (.error (writeApiError 404 .notFound
            "challenge not found" false))] :=
  ⟨_, rfl, rfl⟩

theorem challenge_taken_by_other_account :
    ¬ ∀ challengeTTL clock turns server,
      exec Server.step (.initial challengeTTL clock) turns = some server →
        server.Available := by
  intro hall
  obtain ⟨server, hrun, hhistory⟩ := malloryConfirmsFirst_history
  have hconfirms : Confirms aliceSigns aliceChallenge :=
    ⟨rfl, _, rfl, by decide, by decide, by decide⟩
  have honly : server.OnlyConfirm aliceChallenge 2 := by
    intro other request hmem
    rw [hhistory] at hmem
    have hreceived : other = 2 ∧ request = aliceSigns := by
      simpa [aliceChallenge] using hmem
    exact fun _ => hreceived.1
  have horder : List.Sublist
      [.answered 0 7 (.challenge aliceChallenge),
        .received 2 "alice" aliceSigns,
        .answered 2 9 (.error (writeApiError 404 .notFound
          "challenge not found" false))]
      server.history := by
    rw [hhistory]
    decide
  obtain ⟨signature, authorizedAt, hanswer⟩ :=
    hall 300 0 malloryConfirmsFirst server hrun 0 7 aliceChallenge 2
      aliceSigns 9 _ horder hconfirms (by decide) honly
  cases hanswer

end SoulonWallet.Api
