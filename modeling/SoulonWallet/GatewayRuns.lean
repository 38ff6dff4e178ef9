import SoulonWallet.CallLedger
import SoulonWallet.GatewayRouter
import SoulonWallet.Utf8Bytes

/-!
# RPC calls through the gateway

Health checks and RPC calls take the lock of the router in turn: a check holds
it for all nodes, and a call holds it for its choice of a node.  What comes
after the choice runs beside everything else, so the answers of the nodes come
in any order.

Every call is answered once and sent to a node at most once.  Whether it is
sent, and to whom, depends only on the last check before the call.
-/

namespace SoulonWallet.Gateway

open LabelledRun
open Utf8 (Bytes)

/-! ## The model -/

/-- How the request to `/health` of one node ends. -/
inductive Probe where
  | requestError (message : String)
  | failed (message : String)
  | answered (statusCode : ℕ)
  deriving DecidableEq

structure Check where
  probe : Probe
  now : ℤ
  deriving DecidableEq

def Check.Passed (check : Check) : Prop :=
  ∃ statusCode, check.probe = .answered statusCode ∧
    200 ≤ statusCode ∧ statusCode < 500

/-- How the request to a node ends that carries an RPC call. -/
inductive Answer where
  | requestError (message : String)
  | failed (message : String)
  | bodyError (message : String)
  | answered (statusCode : ℕ) (body : Bytes)
  deriving DecidableEq

/-- What the client gets: a text by `http.Error`, or JSON. -/
inductive Reply where
  | dropped
  | error (statusCode : ℕ) (message : String)
  | json (statusCode : ℕ) (body : Bytes)
  deriving DecidableEq

structure Forward where
  endpoint : String
  payload : Bytes
  deriving DecidableEq

/-- The body of one iteration of `CheckHealth`. -/
def NodeStatus.checked (node : NodeStatus) (check : Check) : NodeStatus :=
  match check.probe with
  | .requestError message | .failed message =>
      { node with
        healthy := false
        lastError := message
        lastCheckedAt := check.now }
  | .answered statusCode =>
      let healthy := decide (200 ≤ statusCode ∧ statusCode < 500)
      { node with
        healthy
        lastError := if healthy then "" else "node health check failed"
        lastCheckedAt := check.now }

/-- One check for each node. -/
def Router.checkHealth (router : Router) (checks : List Check) : Router where
  nodes := List.zipWith NodeStatus.checked router.nodes checks
  rr := router.rr
  nodesFit := by
    have hfit := router.nodesFit
    rw [List.length_zipWith]
    omega

/-- No body goes with these. -/
def bodyAllowedForStatus (statusCode : ℕ) : Bool :=
  !(100 ≤ statusCode && statusCode ≤ 199) && statusCode != 204 &&
    statusCode != 304

/-- The client reads over informational responses, except for 101, and a
status has three digits. -/
def Answer.CanCome : Answer → Prop
  | .answered statusCode _ =>
      statusCode ≤ 999 ∧
        (statusCode = 101 ∨ ¬ (100 ≤ statusCode ∧ statusCode ≤ 199))
  | _ => True

instance (answer : Answer) : Decidable answer.CanCome := by
  cases answer <;> unfold Answer.CanCome <;> infer_instance

/-- The end of the handler; `WriteHeader` panics below 100. -/
def Answer.reply : Answer → Reply
  | .requestError message => .error 500 message
  | .failed message => .error 502 message
  | .bodyError message => .error 502 message
  | .answered statusCode body =>
      if statusCode < 100 then .dropped
      else
        .json statusCode (if bodyAllowedForStatus statusCode then body else [])

/-- The calls, and the requests that were made for them. -/
structure Service where
  router : Router
  rpcs : CallLedger Forward Reply
  forwards : List (ℕ × Forward)

namespace Service

def forwardRPC (service : Service) (payload : Bytes) : Service :=
  match service.router.nextNode.1 with
  | .panicked =>
      { service with
        router := service.router.nextNode.2
        rpcs := service.rpcs.refuse .dropped }
  | .error message =>
      { service with
        router := service.router.nextNode.2
        rpcs := service.rpcs.refuse (.error 503 message) }
  | .node node =>
      let forward : Forward := { endpoint := node.endpoint, payload }
      { router := service.router.nextNode.2
        rpcs := service.rpcs.begin forward
        forwards := service.forwards ++ [(service.rpcs.next, forward)] }

/-- A check, a call of `/v1/rpc` whose body was read or not, or the answer of
a node. -/
inductive Label where
  | check (checks : List Check)
  | rpc (body : Except String Bytes)
  | answered (call : ℕ) (answer : Answer)

def step (service : Service) : Label → Option Service
  | .check checks =>
      if checks.length = service.router.nodes.length then
        some { service with router := service.router.checkHealth checks }
      else none
  | .rpc (.error message) =>
      some { service with rpcs := service.rpcs.refuse (.error 400 message) }
  | .rpc (.ok payload) => some (service.forwardRPC payload)
  | .answered call answer =>
      if hcall : call ∈ service.rpcs.waiting ∧ answer.CanCome then
        some { service with
          rpcs := service.rpcs.finish call hcall.1 answer.reply }
      else none

/-- Before the first check. -/
def fresh (endpoints : List String) (hfit : endpoints.length < 2 ^ 63) :
    Service where
  router := Router.newRouter endpoints hfit
  rpcs := .empty
  forwards := []

def forwardsOf (service : Service) (call : ℕ) : List Forward :=
  (service.forwards.filter (·.1 = call)).map Prod.snd

/-! ## What a history says -/

def Label.checks? : Label → Option (List Check)
  | .check checks => some checks
  | _ => none

def Label.isRpc : Label → Bool
  | .rpc _ => true
  | _ => false

def lastCheck (history : List Label) : Option (List Check) :=
  (history.filterMap Label.checks?).getLast?

/-- The node at a place passed the last check, if there was one. -/
def HealthyAfter (history : List Label) (place : ℕ) : Prop :=
  ∀ checks, lastCheck history = some checks →
    ∃ check, checks[place]? = some check ∧ check.Passed

/-- The number of a call that comes after a history. -/
def callAfter (history : List Label) : ℕ :=
  history.countP Label.isRpc

def unavailable (endpoints : List String) : String :=
  if endpoints = [] then "no nodes configured"
  else "no healthy nodes available"

/-- What has become of a call with a readable body. -/
inductive Routes (endpoints : List String) (service : Service)
    (before : List Label) (payload : Bytes) (after : List Label) : Prop where
  | refused
      (hunhealthy : ∀ place < endpoints.length, ¬ HealthyAfter before place)
      (hforwards : service.forwardsOf (callAfter before) = [])
      (hclosed : (callAfter before, .error 503 (unavailable endpoints)) ∈
        service.rpcs.closed)
  | forwarded (place : ℕ) (endpoint : String)
      (hendpoint : endpoints[place]? = some endpoint)
      (hhealthy : HealthyAfter before place)
      (hforwards : service.forwardsOf (callAfter before) =
        [{ endpoint, payload }])
      (hcall : callAfter before ∈ service.rpcs.waiting ∨
        ∃ answer, .answered (callAfter before) answer ∈ after ∧
          (callAfter before, answer.reply) ∈ service.rpcs.closed)

/-- What has become of a call. -/
def Served (endpoints : List String) (service : Service)
    (before : List Label) (body : Except String Bytes)
    (after : List Label) : Prop :=
  match body with
  | .error message =>
      service.forwardsOf (callAfter before) = [] ∧
        (callAfter before, .error 400 message) ∈ service.rpcs.closed
  | .ok payload => Routes endpoints service before payload after

/-- What holds after every history. -/
structure Correct (endpoints : List String) (history : List Label)
    (service : Service) : Prop where
  nodes : service.router.nodes.map (·.endpoint) = endpoints
  health : ∀ place node, service.router.nodes[place]? = some node →
    (node.healthy ↔ HealthyAfter history place)
  calls : service.rpcs.next = callAfter history
  once : ∀ call reply other, (call, reply) ∈ service.rpcs.closed →
    (call, other) ∈ service.rpcs.closed → reply = other
  served : ∀ before body after, history = before ++ .rpc body :: after →
    Served endpoints service before body after

/-! ## Choosing a node -/

section Choice

variable {router : Router}

theorem search_error
    {start : Int64} {offset remaining : ℕ} {message : String}
    (herror : router.search start offset remaining = .error message) :
    message = "no healthy nodes available" := by
  induction remaining generalizing offset with
  | zero =>
      rw [Router.search, Routed.error.injEq] at herror
      exact herror.symm
  | succ remaining ih =>
      rw [Router.search] at herror
      split at herror
      · cases herror
      · split_ifs at herror
        exact ih herror

/-- Every call far from the end of the counter ends as it should. -/
theorem nextNode_serves
    (hfar : router.rr.toNat + 1 + router.nodes.length ≤ 2 ^ 63) :
    router.Serves router.nextNode.1 := by
  by_cases hnodes : router.nodes = []
  · refine Or.inr ⟨by simp [hnodes], "no nodes configured", ?_⟩
    simp [Router.nextNode, hnodes]
  · exact (Router.nextNode_serves_iff hnodes).mpr
      (Router.staysClear_of_le hnodes hfar)

theorem nextNode_error
    {message : String} (herror : router.nextNode.1 = .error message) :
    message = unavailable (router.nodes.map (·.endpoint)) := by
  by_cases hnodes : router.nodes = []
  · rw [unavailable, if_pos (List.map_eq_nil_iff.mpr hnodes)]
    simpa [Router.nextNode, hnodes] using herror.symm
  · rw [unavailable, if_neg (hnodes ∘ List.map_eq_nil_iff.mp)]
    rw [Router.nextNode_of_nodes hnodes] at herror
    exact search_error herror

theorem rr_nextNode_le (router : Router) :
    router.nextNode.2.rr.toNat ≤ router.rr.toNat + 1 := by
  unfold Router.nextNode
  split_ifs
  · exact Nat.le_succ _
  · have hone : (1 : UInt64).toNat = 1 := rfl
    rw [UInt64.toNat_add, hone]
    exact Nat.mod_le _ _

end Choice

/-! ## Checks -/

theorem checked_endpoint (node : NodeStatus) (check : Check) :
    (node.checked check).endpoint = node.endpoint := by
  unfold NodeStatus.checked
  split
  · rfl
  · rfl
  · rfl

theorem checked_healthy_iff (node : NodeStatus) (check : Check) :
    (node.checked check).healthy ↔ check.Passed := by
  unfold NodeStatus.checked Check.Passed
  split
  · next hprobe => simp [hprobe]
  · next hprobe => simp [hprobe]
  · next hprobe => simp [hprobe]

theorem lastCheck_concat_check (history : List Label) (checks : List Check) :
    lastCheck (history ++ [.check checks]) = some checks := by
  simp [lastCheck, Label.checks?]

theorem healthyAfter_concat_check
    {history : List Label} {checks : List Check} {place : ℕ} :
    HealthyAfter (history ++ [.check checks]) place ↔
      ∃ check, checks[place]? = some check ∧ check.Passed := by
  simp [HealthyAfter, lastCheck_concat_check]

theorem healthyAfter_concat
    {history : List Label} {label : Label} (hlabel : label.checks? = none)
    (place : ℕ) :
    HealthyAfter (history ++ [label]) place ↔ HealthyAfter history place := by
  simp [HealthyAfter, lastCheck, hlabel]

/-! ## What a step leaves alone -/

/-- The part of the past that every step leaves alone. -/
structure Keeps (service next : Service) (label : Label) : Prop where
  closed : service.rpcs.closed ⊆ next.rpcs.closed
  forwards : ∀ call < service.rpcs.next,
    next.forwardsOf call = service.forwardsOf call
  waiting : ∀ call ∈ service.rpcs.waiting,
    call ∈ next.rpcs.waiting ∨
      ∃ answer, label = .answered call answer ∧
        (call, answer.reply) ∈ next.rpcs.closed

section Steps

variable {service next : Service} {label : Label}

theorem forwardsOf_concat
    (service : Service) (router : Router) (rpcs : CallLedger Forward Reply)
    (number call : ℕ) (forward : Forward) :
    forwardsOf
        { router, rpcs, forwards := service.forwards ++ [(number, forward)] }
        call =
      service.forwardsOf call ++ if number = call then [forward] else [] := by
  by_cases hsame : number = call
  · simp [forwardsOf, hsame]
  · simp [forwardsOf, hsame]

theorem forwardsOf_eq_nil
    (hnumbers : ∀ entry ∈ service.forwards, entry.1 < service.rpcs.next) :
    service.forwardsOf service.rpcs.next = [] := by
  rw [forwardsOf, List.map_eq_nil_iff, List.filter_eq_nil_iff]
  intro entry hentry hsame
  exact (hnumbers entry hentry).ne (of_decide_eq_true hsame)

theorem keeps_refuse (service : Service) (router : Router) (reply : Reply)
    (label : Label) :
    Keeps service
      { service with router, rpcs := service.rpcs.refuse reply } label where
  closed := List.subset_append_left _ _
  forwards := fun _ _ => rfl
  waiting := fun _ hcall => Or.inl hcall

theorem forwardRPC_keeps (service : Service) (payload : Bytes)
    (label : Label) :
    Keeps service (service.forwardRPC payload) label := by
  unfold forwardRPC
  split
  · exact keeps_refuse service _ _ label
  · exact keeps_refuse service _ _ label
  · refine ⟨List.Subset.refl _, ?_, ?_⟩
    · intro call hcall
      rw [forwardsOf_concat, if_neg hcall.ne', List.append_nil]
    · intro call hcall
      exact Or.inl (AList.mem_insert _ |>.mpr (Or.inr hcall))

theorem step_keeps (hstep : step service label = some next) :
    Keeps service next label := by
  cases label with
  | check checks =>
      rw [step] at hstep
      split_ifs at hstep
      cases hstep
      exact ⟨List.Subset.refl _, fun _ _ => rfl, fun _ hcall => Or.inl hcall⟩
  | rpc body =>
      cases body with
      | error message =>
          cases hstep
          exact keeps_refuse service service.router _ _
      | ok payload =>
          cases hstep
          exact forwardRPC_keeps service payload _
  | answered call answer =>
      rw [step] at hstep
      split_ifs at hstep with hcall
      cases hstep
      refine ⟨List.subset_append_left _ _, fun _ _ => rfl, ?_⟩
      intro other hother
      by_cases hsame : other = call
      · subst other
        exact Or.inr ⟨answer, rfl, List.mem_append_right _ (by simp)⟩
      · exact Or.inl (AList.mem_erase.mpr ⟨hsame, hother⟩)

theorem Served.concat
    {endpoints : List String} {before after : List Label}
    {body : Except String Bytes}
    (hserved : Served endpoints service before body after)
    (hkeeps : Keeps service next label)
    (hold : callAfter before < service.rpcs.next) :
    Served endpoints next before body (after ++ [label]) := by
  cases body with
  | error message =>
      obtain ⟨hforwards, hclosed⟩ := hserved
      exact ⟨(hkeeps.forwards _ hold).trans hforwards, hkeeps.closed hclosed⟩
  | ok payload =>
      cases hserved with
      | refused hunhealthy hforwards hclosed =>
          exact .refused hunhealthy
            ((hkeeps.forwards _ hold).trans hforwards) (hkeeps.closed hclosed)
      | forwarded place endpoint hendpoint hhealthy hforwards hcall =>
          refine .forwarded place endpoint hendpoint hhealthy
            ((hkeeps.forwards _ hold).trans hforwards) ?_
          rcases hcall with hwaiting | ⟨answer, hanswer, hclosed⟩
          · rcases hkeeps.waiting _ hwaiting with
              hstill | ⟨answer, hlabel, hclosed⟩
            · exact Or.inl hstill
            · exact Or.inr ⟨answer, by simp [hlabel], hclosed⟩
          · exact Or.inr ⟨answer, List.mem_append_left _ hanswer,
              hkeeps.closed hclosed⟩

end Steps

/-! ## Runs -/

/-- `Correct`, with the counter of the router and the numbers that were
given out. -/
structure Inv (endpoints : List String) (history : List Label)
    (service : Service) : Prop extends Correct endpoints history service where
  counter : service.router.rr.toNat ≤ history.length
  numbers : ∀ entry ∈ service.forwards, entry.1 < service.rpcs.next

section Runs

variable {endpoints : List String} {history : List Label}
  {service next : Service} {label : Label}

theorem callAfter_lt
    {before after : List Label} {body : Except String Bytes} :
    callAfter before < callAfter (before ++ .rpc body :: after) := by
  simp only [callAfter, List.countP_append, List.countP_cons, Label.isRpc,
    if_true]
  omega

/-- The calls of a longer history are the old ones and maybe a new one. -/
theorem Inv.served_concat
    (hinv : Inv endpoints history service) (hkeeps : Keeps service next label)
    (hnew : ∀ body, label = .rpc body →
      Served endpoints next history body [])
    (before : List Label) (body : Except String Bytes) (after : List Label)
    (hsplit : history ++ [label] = before ++ .rpc body :: after) :
    Served endpoints next before body after := by
  rcases concat_eq_append_cons hsplit with
    ⟨hlabel, hhistory⟩ | ⟨rest, hrest, hhistory⟩
  · subst before label
    have hafter : after = [] := by simpa using hsplit.symm
    subst after
    exact hnew body rfl
  · subst after
    refine (hinv.served before body rest hhistory).concat hkeeps ?_
    rw [hinv.calls, hhistory]
    exact callAfter_lt

theorem Inv.check
    (hinv : Inv endpoints history service) {checks : List Check}
    (hchecks : checks.length = service.router.nodes.length)
    (hkeeps : Keeps service
      { service with router := service.router.checkHealth checks }
      (.check checks)) :
    Inv endpoints (history ++ [.check checks])
      { service with router := service.router.checkHealth checks } where
  nodes := by
    rw [← hinv.nodes]
    refine List.ext_getElem? fun place => ?_
    simp only [Router.checkHealth, List.getElem?_map, List.getElem?_zipWith]
    cases hnode : service.router.nodes[place]? with
    | none => rfl
    | some node =>
        have hplace := (List.getElem?_eq_some_iff.mp hnode).1
        rw [← hchecks] at hplace
        rw [List.getElem?_eq_getElem hplace]
        exact congrArg some (checked_endpoint node _)
  health := by
    intro place node hnode
    rw [healthyAfter_concat_check]
    simp only [Router.checkHealth, List.getElem?_zipWith] at hnode
    split at hnode
    · next old check hold hcheck =>
        cases hnode
        simp [checked_healthy_iff, hcheck]
    · cases hnode
  calls := by
    rw [hinv.calls]
    simp [callAfter, Label.isRpc]
  once := fun _ _ _ => CallLedger.closed_unique
  served := hinv.served_concat hkeeps fun body hbody => by cases hbody
  counter := hinv.counter.trans (by simp)
  numbers := hinv.numbers

/-- Steps that are not checks. -/
theorem Inv.concat
    (hinv : Inv endpoints history service) (hkeeps : Keeps service next label)
    (hlabel : label.checks? = none)
    (hnodes : next.router.nodes = service.router.nodes)
    (hcounter : next.router.rr.toNat ≤ service.router.rr.toNat + 1)
    (hcalls : next.rpcs.next =
      service.rpcs.next + if label.isRpc then 1 else 0)
    (hnumbers : ∀ entry ∈ next.forwards, entry.1 < next.rpcs.next)
    (hnew : ∀ body, label = .rpc body →
      Served endpoints next history body []) :
    Inv endpoints (history ++ [label]) next where
  nodes := by rw [hnodes, hinv.nodes]
  health := by
    intro place node hnode
    rw [hnodes] at hnode
    rw [healthyAfter_concat hlabel, hinv.health place node hnode]
  calls := by
    rw [hcalls, hinv.calls]
    simp [callAfter, List.countP_cons]
  once := fun _ _ _ => CallLedger.closed_unique
  served := hinv.served_concat hkeeps hnew
  counter := by
    have hold := hinv.counter
    rw [List.length_append, List.length_singleton]
    omega
  numbers := hnumbers

theorem Inv.unreadable
    (hinv : Inv endpoints history service) (message : String) :
    Inv endpoints (history ++ [.rpc (.error message)])
      { service with rpcs := service.rpcs.refuse (.error 400 message) } := by
  refine hinv.concat (keeps_refuse service service.router _ _) rfl rfl
    (Nat.le_succ _) rfl ?_ ?_
  · intro entry hentry
    exact (hinv.numbers entry hentry).trans (Nat.lt_succ_self _)
  · intro body hbody
    cases hbody
    have hnone := forwardsOf_eq_nil hinv.numbers
    have hclosed : (service.rpcs.next, Reply.error 400 message) ∈
        (service.rpcs.refuse (.error 400 message)).closed :=
      List.mem_append_right _ (List.mem_singleton_self _)
    rw [hinv.calls] at hnone hclosed
    exact ⟨hnone, hclosed⟩

theorem Inv.answered
    (hinv : Inv endpoints history service) {call : ℕ} {answer : Answer}
    (hcall : call ∈ service.rpcs.waiting)
    (hkeeps : Keeps service
      { service with rpcs := service.rpcs.finish call hcall answer.reply }
      (.answered call answer)) :
    Inv endpoints (history ++ [.answered call answer])
      { service with rpcs := service.rpcs.finish call hcall answer.reply } :=
  hinv.concat hkeeps rfl rfl (Nat.le_succ _) rfl hinv.numbers
    fun body hbody => by cases hbody

/-- The call that comes in is refused or sent to a healthy node. -/
theorem Inv.routes
    (hinv : Inv endpoints history service)
    (hfar : endpoints.length + history.length < 2 ^ 63) (payload : Bytes) :
    Routes endpoints (service.forwardRPC payload) history payload [] := by
  have hlength : service.router.nodes.length = endpoints.length := by
    rw [← hinv.nodes, List.length_map]
  have hcounter := hinv.counter
  have hnone := forwardsOf_eq_nil hinv.numbers
  have hserves : service.router.Serves service.router.nextNode.1 :=
    nextNode_serves (by omega)
  rcases hserves with
    ⟨node, hnode, hhealthy, hrouted⟩ | ⟨hunhealthy, message, hrouted⟩
  · obtain ⟨place, hplace⟩ := List.mem_iff_getElem?.mp hnode
    have hendpoint : endpoints[place]? = some node.endpoint := by
      rw [← hinv.nodes, List.getElem?_map, hplace]
      rfl
    refine .forwarded place node.endpoint hendpoint
      ((hinv.health place node hplace).mp hhealthy) ?_ (Or.inl ?_)
    · rw [forwardRPC, hrouted]
      dsimp only
      rw [← hinv.calls, forwardsOf_concat, hnone, if_pos rfl, List.nil_append]
    · rw [forwardRPC, hrouted, ← hinv.calls]
      exact AList.mem_insert _ |>.mpr (Or.inl rfl)
  · obtain rfl := nextNode_error hrouted
    rw [hinv.nodes] at hrouted
    refine .refused ?_ ?_ ?_
    · intro place hplace
      rw [← hlength] at hplace
      rw [← hinv.health place _ (List.getElem?_eq_getElem hplace)]
      exact hunhealthy _ (List.getElem_mem hplace)
    · rw [forwardRPC, hrouted, ← hinv.calls]
      exact hnone
    · rw [forwardRPC, hrouted, ← hinv.calls]
      exact List.mem_append_right _ (List.mem_singleton_self _)

theorem Inv.forwardRPC
    (hinv : Inv endpoints history service)
    (hfar : endpoints.length + history.length < 2 ^ 63) (payload : Bytes) :
    Inv endpoints (history ++ [.rpc (.ok payload)])
      (service.forwardRPC payload) := by
  have hcounter := rr_nextNode_le service.router
  refine hinv.concat (forwardRPC_keeps service payload _) rfl ?_ ?_ ?_ ?_ ?_
  · unfold Service.forwardRPC
    split
    · exact Router.nextNode_nodes _
    · exact Router.nextNode_nodes _
    · exact Router.nextNode_nodes _
  · unfold Service.forwardRPC
    split
    · exact hcounter
    · exact hcounter
    · exact hcounter
  · unfold Service.forwardRPC
    split
    · rfl
    · rfl
    · rfl
  · unfold Service.forwardRPC
    have hold : ∀ entry ∈ service.forwards,
        entry.1 < service.rpcs.next + 1 := fun entry hentry =>
      (hinv.numbers entry hentry).trans (Nat.lt_succ_self _)
    split
    · exact hold
    · exact hold
    · intro entry hentry
      rcases List.mem_append.mp hentry with hentry | hentry
      · exact hold entry hentry
      · obtain rfl := List.mem_singleton.mp hentry
        exact Nat.lt_succ_self _
  · intro body hbody
    cases hbody
    exact hinv.routes hfar payload

theorem Inv.step
    (hinv : Inv endpoints history service)
    (hfar : endpoints.length + history.length < 2 ^ 63)
    (hstep : step service label = some next) :
    Inv endpoints (history ++ [label]) next := by
  have hkeeps := step_keeps hstep
  cases label with
  | check checks =>
      rw [Service.step] at hstep
      split_ifs at hstep with hchecks
      cases hstep
      exact hinv.check hchecks hkeeps
  | rpc body =>
      cases body with
      | error message =>
          cases hstep
          exact hinv.unreadable message
      | ok payload =>
          cases hstep
          exact hinv.forwardRPC hfar payload
  | answered call answer =>
      rw [Service.step] at hstep
      split_ifs at hstep with hcall
      cases hstep
      exact hinv.answered hcall.1 hkeeps

end Runs

end Service

end SoulonWallet.Gateway
