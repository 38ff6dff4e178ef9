import SoulonWallet.WrappingInt64

/-!
# The gateway's choice of a node

`NextNode` starts at the node after that of the previous call and takes the
first healthy one from there on.  The counter of the calls is unsigned, its
conversion to a signed number is negative in the upper half of its range, and
the remainder by the number of nodes keeps that sign: an index at which the
loop then arrives is out of range.

The indexes of one call are right up to `clearIndexes`, so that the call
serves exactly when it ends before; `len(nodes)` calls in a row that all serve
begin at every node in turn.
-/

namespace SoulonWallet.Gateway

open WrappingInt64

structure NodeStatus where
  endpoint : String
  healthy : Bool
  lastCheckedAt : ℤ
  lastError : String
  deriving DecidableEq

/-- The length of a slice is an `int`. -/
structure Router where
  nodes : List NodeStatus
  rr : UInt64
  nodesFit : nodes.length < 2 ^ 63

/-- How `NextNode` ends. -/
inductive Routed where
  | panicked
  | node (node : NodeStatus)
  | error (message : String)
  deriving DecidableEq

namespace Router

/-- `NewRouter`; the zero time is 0. -/
def newRouter (endpoints : List String)
    (hfit : endpoints.length < 2 ^ 63) : Router where
  nodes := endpoints.map fun endpoint =>
    { endpoint := endpoint
      healthy := true
      lastCheckedAt := 0
      lastError := "" }
  rr := 0
  nodesFit := by simpa using hfit

/-- `r.nodes[index]`, which panics out of range. -/
def nodeAt (router : Router) (index : Int64) : Option NodeStatus :=
  if index.toInt < 0 then none else router.nodes[index.toInt.toNat]?

def index (router : Router) (start : Int64) (offset : ℕ) : Int64 :=
  (start + Int64.ofNat offset) % Int64.ofNat router.nodes.length

/-- The loop over the offsets, of which some remain. -/
def search (router : Router) (start : Int64) (offset : ℕ) : ℕ → Routed
  | 0 => .error "no healthy nodes available"
  | remaining + 1 =>
      match router.nodeAt (router.index start offset) with
      | none => .panicked
      | some node =>
          if node.healthy then .node node
          else search router start (offset + 1) remaining

def start (router : Router) : Int64 :=
  (router.rr + 1).toInt64

/-- The answer, and the router after the call. -/
def nextNode (router : Router) : Routed × Router :=
  if router.nodes.length = 0 then (.error "no nodes configured", router)
  else
    (router.search router.start 0 router.nodes.length,
      { router with rr := router.rr + 1 })

/-- The router after some calls without a change of the health flags. -/
def after (router : Router) : ℕ → Router
  | 0 => router
  | calls + 1 => (router.after calls).nextNode.2

/-- What one call should give: a healthy node if there is one, and an error
otherwise. -/
def Serves (router : Router) (routed : Routed) : Prop :=
  (∃ node ∈ router.nodes, node.healthy ∧ routed = .node node) ∨
    ((∀ node ∈ router.nodes, ¬ node.healthy) ∧
      ∃ message, routed = .error message)

/-- The next `len(nodes)` calls all give what they should, and together every
healthy node. -/
def ServesAll (router : Router) : Prop :=
  (∀ calls < router.nodes.length,
    router.Serves (router.after calls).nextNode.1) ∧
    ∀ node ∈ router.nodes, node.healthy →
      ∃ calls < router.nodes.length,
        (router.after calls).nextNode.1 = .node node

/-- How many offsets of one call come before the first negative index. -/
def clearIndexes (router : Router) : ℕ :=
  let start := router.start.toInt
  let count : ℤ := router.nodes.length
  if start < 0 then if count ∣ start then 1 else 0
  else (2 ^ 63 - start).toNat + if count ∣ 2 ^ 63 then 1 else 0

def HealthyAt (router : Router) (place : ℕ) : Prop :=
  (router.nodes[place]?).any (·.healthy)

/-- No negative index comes up, or a healthy node stands before it. -/
def StaysClear (router : Router) : Prop :=
  router.nodes.length ≤ router.clearIndexes ∨
    ∃ offset < router.clearIndexes,
      router.HealthyAt
        ((router.start.toInt + offset) % router.nodes.length).toNat

/-! ## Indexes -/

theorem tmod_eq_emod_of_clear
    {place count : ℤ} (hclear : 0 ≤ place ∨ count ∣ place) :
    place.tmod count = place % count := by
  rw [Int.tmod_eq_emod, if_pos hclear, Int.natCast_zero, Int.sub_zero]

theorem tmod_neg_of_not_clear
    {place count : ℤ} (hcount : 0 < count) (hneg : place < 0)
    (hdvd : ¬ count ∣ place) :
    place.tmod count < 0 := by
  have hbelow := Int.emod_lt_of_pos place hcount
  have hnot : ¬ (0 ≤ place ∨ count ∣ place) := by
    rintro (hnonneg | hdvd')
    · omega
    · exact hdvd hdvd'
  rw [Int.tmod_eq_emod, if_neg hnot]
  omega

/-- Two numbers in a row are not both multiples of something above one. -/
theorem not_dvd_add_one
    {count place : ℤ} (hcount : 1 < count) (hdvd : count ∣ place) :
    ¬ count ∣ place + 1 := by
  intro hnext
  have hone : count ∣ 1 := (Int.dvd_iff_dvd_of_dvd_add hnext).mp hdvd
  have hle := Int.le_of_dvd one_pos hone
  omega

section Indexes

variable {router : Router} {offset : ℕ}

theorem place_of_lt
    (hoffset : offset < 2 ^ 63)
    (hplace : router.start.toInt + offset < 2 ^ 63) :
    (router.start + Int64.ofNat offset).toInt =
      router.start.toInt + offset := by
  have hlow := router.start.le_toInt
  have hcast := Int64.toInt_ofNat_of_lt hoffset
  rw [toInt_add_of_lt (by omega) (by omega), hcast]

theorem place_of_ge
    (hoffset : offset < 2 ^ 63)
    (hplace : 2 ^ 63 ≤ router.start.toInt + offset) :
    (router.start + Int64.ofNat offset).toInt =
      router.start.toInt + offset - 2 ^ 64 := by
  have hcast := Int64.toInt_ofNat_of_lt hoffset
  rw [toInt_add_of_ge (by omega), hcast]

theorem toInt_index :
    (router.index router.start offset).toInt =
      (router.start + Int64.ofNat offset).toInt.tmod router.nodes.length := by
  rw [index, Int64.toInt_mod, Int64.toInt_ofNat_of_lt router.nodesFit]

/-- The place before the remainder, while the indexes are clear. -/
theorem place_of_lt_clearIndexes
    (hoffset : offset < router.nodes.length)
    (hclear : offset < router.clearIndexes) :
    (0 ≤ (router.start + Int64.ofNat offset).toInt ∨
        (router.nodes.length : ℤ) ∣
          (router.start + Int64.ofNat offset).toInt) ∧
      (router.start + Int64.ofNat offset).toInt % router.nodes.length =
        (router.start.toInt + offset) % router.nodes.length := by
  have hfit := router.nodesFit
  have htop := router.start.toInt_lt
  unfold clearIndexes at hclear
  dsimp only at hclear
  split_ifs at hclear with hneg hdvd hdvd
  · obtain rfl : offset = 0 := by omega
    rw [place_of_lt (by omega) (by omega)]
    exact ⟨Or.inr (by simpa using hdvd), rfl⟩
  · omega
  · rcases lt_or_ge (router.start.toInt + offset) (2 ^ 63) with hlow | hhigh
    · rw [place_of_lt (by omega) hlow]
      exact ⟨Or.inl (by omega), rfl⟩
    · have hend : router.start.toInt + offset = 2 ^ 63 := by omega
      have hbottom : (2 ^ 63 - 2 ^ 64 : ℤ) = -2 ^ 63 := by norm_num
      rw [place_of_ge (by omega) hhigh, hend, hbottom,
        Int.emod_eq_zero_of_dvd hdvd,
        Int.emod_eq_zero_of_dvd ((Int.dvd_neg).mpr hdvd)]
      exact ⟨Or.inr ((Int.dvd_neg).mpr hdvd), rfl⟩
  · rw [place_of_lt (by omega) (by omega)]
    exact ⟨Or.inl (by omega), rfl⟩

/-- The first place that is not clear. -/
theorem place_clearIndexes
    (hclear : router.clearIndexes < router.nodes.length) :
    (router.start + Int64.ofNat router.clearIndexes).toInt < 0 ∧
      ¬ (router.nodes.length : ℤ) ∣
        (router.start + Int64.ofNat router.clearIndexes).toInt := by
  have hfit := router.nodesFit
  have hhigh := router.start.toInt_lt
  unfold clearIndexes at hclear ⊢
  dsimp only at hclear ⊢
  split_ifs at hclear ⊢ with hneg hdvd hdvd
  · have hnext := not_dvd_add_one (by omega) hdvd
    rw [place_of_lt (by omega) (by omega)]
    refine ⟨?_, by simpa using hnext⟩
    rcases (by omega : router.start.toInt + 1 < 0 ∨
      router.start.toInt + 1 = 0) with hlow | hzero
    · simpa using hlow
    · rw [hzero] at hnext
      exact absurd (dvd_zero _) hnext
  · rw [place_of_lt (by omega) (by omega)]
    exact ⟨by simpa using hneg, by simpa using hdvd⟩
  · have hnext := not_dvd_add_one (by omega) ((Int.dvd_neg).mpr hdvd)
    have htop : router.start.toInt +
        (((2 ^ 63 - router.start.toInt).toNat + 1 : ℕ) : ℤ) - 2 ^ 64 =
          -2 ^ 63 + 1 := by
      omega
    rw [place_of_ge (by omega) (by omega), htop]
    exact ⟨by norm_num, hnext⟩
  · have htop : router.start.toInt +
        (((2 ^ 63 - router.start.toInt).toNat + 0 : ℕ) : ℤ) - 2 ^ 64 =
          -2 ^ 63 := by
      omega
    rw [place_of_ge (by omega) (by omega), htop]
    exact ⟨by norm_num, fun hall => hdvd ((Int.dvd_neg).mp hall)⟩

theorem nodeAt_of_lt_clearIndexes
    (hoffset : offset < router.nodes.length)
    (hclear : offset < router.clearIndexes) :
    router.nodeAt (router.index router.start offset) =
      router.nodes[((router.start.toInt + offset) %
        router.nodes.length).toNat]? := by
  obtain ⟨hplace, hsame⟩ := place_of_lt_clearIndexes hoffset hclear
  have hnonneg := Int.emod_nonneg (router.start.toInt + offset)
    (by omega : (router.nodes.length : ℤ) ≠ 0)
  rw [nodeAt, toInt_index, tmod_eq_emod_of_clear hplace, hsame,
    if_neg (by omega)]

theorem nodeAt_clearIndexes
    (hclear : router.clearIndexes < router.nodes.length) :
    router.nodeAt (router.index router.start router.clearIndexes) = none := by
  obtain ⟨hneg, hdvd⟩ := place_clearIndexes hclear
  rw [nodeAt, toInt_index,
    if_pos (tmod_neg_of_not_clear (by omega) hneg hdvd)]

end Indexes

/-! ## One call -/

section Call

variable {router : Router}

/-- The offsets of one call reach every place. -/
theorem exists_offset
    {count : ℕ} (start : ℤ) {place : ℕ} (hplace : place < count) :
    ∃ offset < count, ((start + (offset : ℤ)) % (count : ℤ)).toNat = place := by
  have hcount : (count : ℤ) ≠ 0 := by omega
  have hnonneg := Int.emod_nonneg (place - start) hcount
  have hbelow := Int.emod_lt_of_pos (place - start)
    (by omega : (0 : ℤ) < count)
  refine ⟨((place - start) % count).toNat, by omega, ?_⟩
  rw [Int.toNat_of_nonneg hnonneg, Int.add_emod_emod, add_sub_cancel,
    Int.emod_eq_of_lt (by omega) (by omega)]
  rfl

theorem healthyAt_iff
    {place : ℕ} {node : NodeStatus}
    (hplace : router.nodes[place]? = some node) :
    router.HealthyAt place ↔ node.healthy := by
  rw [HealthyAt, hplace]
  rfl

theorem exists_node
    {offset : ℕ} (hoffset : offset < router.nodes.length) :
    ∃ node ∈ router.nodes,
      router.nodes[((router.start.toInt + offset) %
        router.nodes.length).toNat]? = some node := by
  have hnonneg := Int.emod_nonneg (router.start.toInt + offset)
    (by omega : (router.nodes.length : ℤ) ≠ 0)
  have hbelow := Int.emod_lt_of_pos (router.start.toInt + offset)
    (by omega : (0 : ℤ) < router.nodes.length)
  refine ⟨_, ?_, List.getElem?_eq_getElem (by omega)⟩
  exact List.getElem_mem _

/-- The loop, when no healthy node was met up to an offset. -/
theorem search_serves_iff
    {offset remaining : ℕ}
    (hend : offset + remaining = router.nodes.length)
    (hclear : offset ≤ router.clearIndexes)
    (hbefore : ∀ earlier < offset,
      ¬ router.HealthyAt ((router.start.toInt + earlier) %
        router.nodes.length).toNat) :
    router.Serves (router.search router.start offset remaining) ↔
      router.StaysClear := by
  induction remaining generalizing offset with
  | zero =>
      refine iff_of_true (Or.inr ⟨?_, _, rfl⟩) (Or.inl (by omega))
      intro node hnode
      obtain ⟨place, hplace⟩ := List.mem_iff_getElem?.mp hnode
      have hlength := (List.getElem?_eq_some_iff.mp hplace).1
      obtain ⟨earlier, hearlier, rfl⟩ :=
        exists_offset router.start.toInt hlength
      rw [← healthyAt_iff hplace]
      exact hbefore earlier (by omega)
  | succ remaining ih =>
      rw [search]
      rcases hclear.lt_or_eq with hlt | rfl
      · obtain ⟨node, hnode, hplace⟩ :=
          exists_node (by omega : offset < router.nodes.length)
        rw [nodeAt_of_lt_clearIndexes (by omega) hlt, hplace]
        dsimp only
        split_ifs with hhealthy
        · refine iff_of_true (Or.inl ⟨node, hnode, hhealthy, rfl⟩) ?_
          exact Or.inr ⟨offset, hlt, (healthyAt_iff hplace).mpr hhealthy⟩
        · refine ih (by omega) hlt ?_
          intro earlier hearlier
          rcases Nat.lt_succ_iff_lt_or_eq.mp hearlier with hold | rfl
          · exact hbefore earlier hold
          · rwa [healthyAt_iff hplace]
      · rw [nodeAt_clearIndexes (by omega)]
        refine iff_of_false ?_ ?_
        · rintro (⟨node, -, -, hrouted⟩ | ⟨-, message, hrouted⟩)
          · cases hrouted
          · cases hrouted
        · rintro (hlength | ⟨earlier, hearlier, hhealthy⟩)
          · omega
          · exact hbefore earlier hearlier hhealthy

theorem nextNode_of_nodes
    (hnodes : router.nodes ≠ []) :
    router.nextNode =
      (router.search router.start 0 router.nodes.length,
        { router with rr := router.rr + 1 }) := by
  have hlength : router.nodes.length ≠ 0 :=
    fun hzero => hnodes (List.length_eq_zero_iff.mp hzero)
  rw [nextNode, if_neg hlength]

theorem nextNode_serves_iff (hnodes : router.nodes ≠ []) :
    router.Serves router.nextNode.1 ↔ router.StaysClear := by
  rw [nextNode_of_nodes hnodes]
  exact search_serves_iff (Nat.zero_add _) (Nat.zero_le _)
    fun _ hearlier => absurd hearlier (Nat.not_lt_zero _)

/-- A call whose first index is that of a healthy node returns the node. -/
theorem nextNode_of_healthy
    (hclear : router.StaysClear) {node : NodeStatus}
    (hplace : router.nodes[(router.start.toInt %
      router.nodes.length).toNat]? = some node)
    (hhealthy : node.healthy) :
    router.nextNode.1 = .node node := by
  have hnodes : router.nodes ≠ [] := by
    intro hnil
    simp [hnil] at hplace
  have hlength := List.length_pos_iff.mpr hnodes
  have hfirst : 0 < router.clearIndexes := by
    rcases hclear with hall | ⟨offset, hoffset, -⟩
    · omega
    · omega
  obtain ⟨remaining, hremaining⟩ :=
    Nat.exists_eq_succ_of_ne_zero hlength.ne'
  rw [nextNode_of_nodes hnodes, hremaining, search,
    nodeAt_of_lt_clearIndexes hlength hfirst, Int.natCast_zero, add_zero,
    hplace]
  simp [hhealthy]

/-- A call whose first index is negative does not end well. -/
theorem nextNode_of_no_clearIndexes
    (hnodes : router.nodes ≠ []) (hnone : router.clearIndexes = 0) :
    router.nextNode.1 = .panicked := by
  have hlength := List.length_pos_iff.mpr hnodes
  have hfirst := nodeAt_clearIndexes (by omega :
    router.clearIndexes < router.nodes.length)
  obtain ⟨remaining, hremaining⟩ :=
    Nat.exists_eq_succ_of_ne_zero hlength.ne'
  rw [hnone] at hfirst
  rw [nextNode_of_nodes hnodes, hremaining, search, hfirst]

end Call

/-! ## Calls in a row -/

section Window

variable {router : Router}

@[simp] theorem nextNode_nodes (router : Router) :
    router.nextNode.2.nodes = router.nodes := by
  unfold nextNode
  split_ifs
  · rfl
  · rfl

@[simp] theorem nodes_after (router : Router) (calls : ℕ) :
    (router.after calls).nodes = router.nodes := by
  induction calls with
  | zero => rfl
  | succ calls ih => rw [after, nextNode_nodes, ih]

/-- The counter of every number of calls. -/
theorem rr_after (hnodes : router.nodes ≠ []) (calls : ℕ) :
    (router.after calls).rr = router.rr + UInt64.ofNat calls := by
  induction calls with
  | zero => simp [after]
  | succ calls ih =>
      have hkept : (router.after calls).nodes ≠ [] := by
        rwa [nodes_after]
      rw [after, nextNode_of_nodes hkept, UInt64.ofNat_add,
        ← UInt64.add_assoc, ← ih]
      rfl

theorem start_after (hnodes : router.nodes ≠ []) (calls : ℕ) :
    (router.after calls).start = router.start + Int64.ofNat calls := by
  have hcounter : router.rr + UInt64.ofNat calls + 1 =
      router.rr + 1 + UInt64.ofNat calls := by
    rw [UInt64.add_assoc, UInt64.add_comm (UInt64.ofNat calls),
      UInt64.add_assoc]
  rw [start, rr_after hnodes, hcounter, UInt64.toInt64_add,
    UInt64.toInt64_ofNat', start]

/-- The calls of a window that all stay clear begin at consecutive residues:
the sign changes within the window at most when the number of nodes is a power
of two. -/
theorem start_after_emod
    (hnodes : router.nodes ≠ [])
    (hclear : ∀ calls < router.nodes.length,
      (router.after calls).StaysClear)
    {calls : ℕ} (hcalls : calls < router.nodes.length) :
    (router.after calls).start.toInt % router.nodes.length =
      (router.start.toInt + calls) % router.nodes.length := by
  have hfit := router.nodesFit
  rw [start_after hnodes]
  rcases lt_or_ge (router.start.toInt + calls) (2 ^ 63) with hlow | hhigh
  · rw [place_of_lt (by omega) hlow]
  · have htop := router.start.toInt_lt
    obtain ⟨turn, hturn⟩ : ∃ turn : ℕ, router.start.toInt + turn = 2 ^ 63 :=
      ⟨(2 ^ 63 - router.start.toInt).toNat, by omega⟩
    have hbottom : (router.after turn).start.toInt = -2 ^ 63 := by
      rw [start_after hnodes, place_of_ge (by omega) hturn.ge, hturn]
      norm_num
    have hdvd : (router.nodes.length : ℤ) ∣ -2 ^ 63 := by
      by_contra hnot
      have hnone : (router.after turn).clearIndexes = 0 := by
        unfold clearIndexes
        dsimp only
        rw [hbottom, nodes_after, if_pos (by norm_num), if_neg hnot]
      rcases hclear turn (by omega) with hall | ⟨offset, hoffset, -⟩
      · rw [hnone, nodes_after] at hall
        omega
      · omega
    obtain ⟨quotient, hquotient⟩ := hdvd
    have hwhole : (2 ^ 64 : ℤ) = router.nodes.length * (-2 * quotient) := by
      rw [mul_left_comm, ← hquotient]
      norm_num
    rw [place_of_ge (by omega) hhigh, hwhole, Int.sub_mul_emod_self_left]

theorem serves_after (calls : ℕ) (routed : Routed) :
    (router.after calls).Serves routed ↔ router.Serves routed := by
  simp only [Serves, nodes_after]

theorem nextNode_after_serves_iff
    (hnodes : router.nodes ≠ []) (calls : ℕ) :
    router.Serves (router.after calls).nextNode.1 ↔
      (router.after calls).StaysClear := by
  rw [← serves_after calls]
  exact nextNode_serves_iff (by rwa [nodes_after])

theorem servesAll_iff (hnodes : router.nodes ≠ []) :
    router.ServesAll ↔
      ∀ calls < router.nodes.length, (router.after calls).StaysClear := by
  constructor
  · rintro ⟨hserves, -⟩ calls hcalls
    exact (nextNode_after_serves_iff hnodes calls).mp (hserves calls hcalls)
  · intro hclear
    refine ⟨?_, ?_⟩
    · intro calls hcalls
      exact (nextNode_after_serves_iff hnodes calls).mpr (hclear calls hcalls)
    · intro node hnode hhealthy
      obtain ⟨place, hplace⟩ := List.mem_iff_getElem?.mp hnode
      have hlength := (List.getElem?_eq_some_iff.mp hplace).1
      obtain ⟨calls, hcalls, rfl⟩ :=
        exists_offset router.start.toInt hlength
      refine ⟨calls, hcalls,
        nextNode_of_healthy (hclear calls hcalls) ?_ hhealthy⟩
      rw [nodes_after, start_after_emod hnodes hclear hcalls, hplace]

/-- As long as the signed counter is far from its end, every call serves. -/
theorem staysClear_of_le
    (hnodes : router.nodes ≠ [])
    (hstart : router.rr.toNat + 1 + router.nodes.length ≤ 2 ^ 63) :
    router.StaysClear := by
  have hlength := List.length_pos_iff.mpr hnodes
  have hcounter : router.rr.toInt64.toInt = router.rr.toNat :=
    toInt_toInt64_of_lt (by omega)
  have hvalue : router.start.toInt = router.rr.toNat + 1 := by
    have hone : (1 : Int64).toInt = 1 := rfl
    have hsum : router.start = router.rr.toInt64 + 1 := rfl
    rw [hsum, toInt_add_of_lt (by omega) (by omega), hcounter, hone]
  refine Or.inl ?_
  unfold clearIndexes
  dsimp only
  rw [if_neg (by omega), hvalue]
  omega

end Window

/-- One call gives a healthy node, or an error when there is none, exactly
when it stays clear; `len(nodes)` calls in a row do so, and give every healthy
node, exactly when all of them stay clear. -/
theorem nextNode_routes_iff
    (router : Router) (hnodes : router.nodes ≠ []) :
    (router.Serves router.nextNode.1 ↔ router.StaysClear) ∧
      (router.ServesAll ↔
        ∀ calls < router.nodes.length, (router.after calls).StaysClear) :=
  ⟨nextNode_serves_iff hnodes, servesAll_iff hnodes⟩

/-! ## Three nodes -/

def freshFleet : Router :=
  newRouter ["http://node-1", "http://node-2", "http://node-3"] (by decide)

theorem freshFleet_servesAll : freshFleet.ServesAll := by
  have hnodes : freshFleet.nodes ≠ [] := by decide
  refine (nextNode_routes_iff freshFleet hnodes).2.mpr ?_
  intro calls hcalls
  have hthree : freshFleet.nodes.length = 3 := rfl
  rw [hthree] at hcalls
  refine staysClear_of_le (by rwa [nodes_after]) ?_
  rw [rr_after hnodes, nodes_after]
  interval_cases calls
  · decide
  · decide
  · decide

/-- After 2 ^ 63 - 1 calls the counter turns negative, and although all nodes
are healthy the next call panics. -/
theorem freshFleet_panics :
    (∀ node ∈ freshFleet.nodes, node.healthy) ∧
      (freshFleet.after (2 ^ 63 - 1)).nextNode.1 = .panicked ∧
      ¬ freshFleet.Serves (freshFleet.after (2 ^ 63 - 1)).nextNode.1 := by
  have hnodes : freshFleet.nodes ≠ [] := by decide
  have hstart : (freshFleet.start + Int64.ofNat (2 ^ 63 - 1)).toInt =
      -2 ^ 63 := by decide
  have hnone : (freshFleet.after (2 ^ 63 - 1)).clearIndexes = 0 := by
    have hthree : freshFleet.nodes.length = 3 := rfl
    unfold clearIndexes
    dsimp only
    rw [start_after hnodes, hstart, nodes_after, hthree,
      if_pos (by norm_num), if_neg (by norm_num)]
  have hpanicked := nextNode_of_no_clearIndexes
    (by rwa [nodes_after]) hnone
  refine ⟨by decide, hpanicked, ?_⟩
  rw [hpanicked]
  rintro (⟨node, -, -, hrouted⟩ | ⟨-, message, hrouted⟩)
  · cases hrouted
  · cases hrouted

end Router

end SoulonWallet.Gateway
