import SoulonWallet.DappApproval

/-!
# The tracked transaction

`DappInteropStore` tracks one transaction for reorganizations.  A refresh
starts with the hash that is bound then, asks the chain for the height of the
transaction, then the indexer for its tip, and writes the whole notice.  Any
number of refreshes are under way at a time, from the page and from the timer,
and nothing stops the transaction from being bound anew in the meantime.

Times are microseconds, and `tryParse` stands for `int.tryParse`.  The record
of what was bound, written and reported is kept beside the state.
-/

namespace SoulonWallet.Dapp

open LabelledRun

/-! ## Answers of the API -/

/-- What `jsonDecode` returns; the keys of a map are distinct. -/
inductive JsonValue where
  | null
  | bool (value : Bool)
  | int (value : ℤ)
  | double (value : Binary64)
  | string (text : Utf16)
  | list (items : List JsonValue)
  | map (entries : List (Utf16 × JsonValue))

abbrev JsonMap := List (Utf16 × JsonValue)

/-- `map[key]`. -/
def JsonMap.get (entries : JsonMap) (key : Utf16) : JsonValue :=
  match entries.find? fun entry => entry.1 = key with
  | some entry => entry.2
  | none => .null

def asMap : JsonValue → JsonMap
  | .map entries => entries
  | _ => []

def maxInt : ℤ := 2 ^ 63 - 1

def minInt : ℤ := -2 ^ 63

/-- `double.toInt`, which throws on what is not finite. -/
def truncate : Binary64 → Except Unit ℤ
  | .finite value =>
      .ok (max minInt (min maxInt
        (if 0 ≤ value then ⌊value⌋ else ⌈value⌉)))
  | _ => .error ()

def toInt (tryParse : Utf16 → Option ℤ) : JsonValue → Except Unit ℤ
  | .int value => .ok value
  | .string text => .ok ((tryParse text).getD 0)
  | .double value => truncate value
  | _ => .ok 0

/-! ## The store -/

structure ReorgNotice where
  txHash : Utf16
  previousHeight : ℤ
  currentHeight : ℤ
  status : Utf16
  detectedAt : ℤ

/-- The part of `DappInteropState` that tracking uses. -/
structure TrackingState where
  reorgNotice : ReorgNotice
  loading : Bool := false
  errorText : Option Utf16 := none
  noticeText : Option Utf16 := none

/-- What a refresh waits for; `internal` is the await of
`refreshReorgStatus`. -/
inductive RefreshAwait where
  | chainTx (txHash : Utf16)
  | indexerState (txHash : Utf16) (chainHeight : ℤ)
  | internal

/-- `manual` refreshes come from `refreshReorgStatus`, the others from a
burst of the timer. -/
structure Refresh where
  manual : Bool
  await : RefreshAwait

/-- `bound` is the hash of the last bind, `refreshed` tells whether a refresh
has written the notice since then, and `reported` has the heights that the
chain has answered. -/
structure TrackingStore where
  value : TrackingState
  calls : KeyedMap ℕ Refresh
  nextCall : ℕ
  bound : Option Utf16
  refreshed : Bool
  reported : List (Utf16 × ℤ)

abbrev Answer := Except PostFailure JsonMap

inductive TrackingTurn where
  | bindTrackedTx (txHash : Utf16) (now : ℤ)
  | refreshReorgStatus
  | runAutoRefreshBurst
  | chainTxAnswered (call : ℕ) (answer : Answer) (now : ℤ)
  | indexerStateAnswered (call : ℕ) (answer : Answer) (now : ℤ)
  | refreshed (call : ℕ)

/-- The body of the transaction, which a missing one does not have. -/
def safeGetChainTx : Answer → Answer
  | .error (.api exception) =>
      if exception.kind = .notFound then .ok [] else .error (.api exception)
  | answer => answer

def refreshStatus (chainHeight tipHeight : ℤ) : Utf16 :=
  if chainHeight ≤ 0 ∧ tipHeight ≤ 0 then "链端无数据"
  else if 0 < chainHeight ∧ chainHeight ≤ tipHeight then "已确认，高度一致"
  else if 0 < chainHeight ∧ tipHeight < chainHeight then
    "疑似 Reorg，高度回退"
  else "等待链上确认"

namespace TrackingStore

/-- `DateTime(2026, 3, 5)` is `createdAt`. -/
def initial (createdAt : ℤ) : TrackingStore where
  value :=
    { reorgNotice :=
        { txHash := "-"
          previousHeight := 0
          currentHeight := 0
          status := "未绑定交易"
          detectedAt := createdAt } }
  calls := ∅
  nextCall := 0
  bound := none
  refreshed := false
  reported := []

def bindTrackedTx (store : TrackingStore) (txHash : Utf16) (now : ℤ) :
    TrackingStore :=
  { store with
    value :=
      { store.value with
        reorgNotice :=
          { store.value.reorgNotice with
            txHash := txHash
            status := "已绑定，等待刷新"
            detectedAt := now }
        errorText := none }
    bound := some txHash
    refreshed := false }

/-- A refresh that starts waits for the chain. -/
def start (store : TrackingStore) (manual : Bool) : TrackingStore :=
  { store with
    calls :=
      store.calls.insert store.nextCall
        ⟨manual, .chainTx store.value.reorgNotice.txHash⟩
    nextCall := store.nextCall + 1 }

def untracked (store : TrackingStore) : Prop :=
  store.value.reorgNotice.txHash = "-" ∨
    store.value.reorgNotice.txHash.isEmpty = true

instance (store : TrackingStore) : Decidable store.untracked := by
  unfold untracked
  infer_instance

def refreshReorgStatus (store : TrackingStore) : TrackingStore :=
  if store.untracked then store
  else
    { store with
      value := { store.value with loading := true, errorText := none }
      }.start true

def runAutoRefreshBurst (store : TrackingStore) : TrackingStore :=
  if store.untracked then store else store.start false

/-- `_refreshReorgStatusInternal` returns to its caller, if there is one. -/
def finish (store : TrackingStore) (call : ℕ) (manual : Bool) :
    TrackingStore :=
  { store with
    calls :=
      if manual then store.calls.insert call ⟨manual, .internal⟩
      else store.calls.erase call }

/-- The `catch` clauses. -/
def fail (store : TrackingStore) (call : ℕ) (manual : Bool)
    (errorText : Option Utf16) (now : ℤ) : TrackingStore :=
  { store with
    value :=
      { store.value with
        reorgNotice :=
          { store.value.reorgNotice with
            status := "查询失败"
            detectedAt := now }
        errorText :=
          match errorText with
          | some text => some text
          | none => store.value.errorText } }.finish call manual

def failureText : PostFailure → Option Utf16
  | .api exception => some (mapApiErrorMessage exception)
  | _ => none

/-- The chain has answered: the refresh goes on to ask the indexer. -/
def report (store : TrackingStore) (call : ℕ) (manual : Bool)
    (txHash : Utf16) (chainHeight : ℤ) : TrackingStore :=
  { store with
    calls :=
      store.calls.insert call ⟨manual, .indexerState txHash chainHeight⟩
    reported := store.reported ++ [(txHash, chainHeight)] }

/-- The indexer has answered: the notice is written. -/
def write (store : TrackingStore) (call : ℕ) (manual : Bool)
    (txHash : Utf16) (chainHeight tipHeight now : ℤ) : TrackingStore :=
  let previousHeight := store.value.reorgNotice.previousHeight
  let status := refreshStatus chainHeight tipHeight
  { store with
    value :=
      { store.value with
        reorgNotice :=
          { txHash := txHash
            previousHeight :=
              if 0 < previousHeight then previousHeight else chainHeight
            currentHeight :=
              if 0 < tipHeight then tipHeight else chainHeight
            status := status
            detectedAt := now }
        noticeText := some (("交易状态已刷新：" : Utf16) ++ status) }
    refreshed := true }.finish call manual

variable (tryParse : Utf16 → Option ℤ)

def chainTxAnswered (store : TrackingStore) (call : ℕ) (manual : Bool)
    (txHash : Utf16) (answer : Answer) (now : ℤ) : TrackingStore :=
  match safeGetChainTx answer with
  | .error failure => store.fail call manual (failureText failure) now
  | .ok body =>
      match toInt tryParse
          (JsonMap.get (asMap (body.get "tx_response")) "height") with
      | .error _ => store.fail call manual none now
      | .ok chainHeight => store.report call manual txHash chainHeight

def indexerStateAnswered (store : TrackingStore) (call : ℕ) (manual : Bool)
    (txHash : Utf16) (chainHeight : ℤ) (answer : Answer) (now : ℤ) :
    TrackingStore :=
  match answer with
  | .error failure => store.fail call manual (failureText failure) now
  | .ok body =>
      match toInt tryParse (body.get "tipHeight") with
      | .error _ => store.fail call manual none now
      | .ok tipHeight =>
          store.write call manual txHash chainHeight tipHeight now

def step (store : TrackingStore) : TrackingTurn → Option TrackingStore
  | .bindTrackedTx txHash now => some (store.bindTrackedTx txHash now)
  | .refreshReorgStatus => some store.refreshReorgStatus
  | .runAutoRefreshBurst => some store.runAutoRefreshBurst
  | .chainTxAnswered call answer now =>
      match store.calls.lookup call with
      | some ⟨manual, .chainTx txHash⟩ =>
          some (store.chainTxAnswered tryParse call manual txHash answer now)
      | _ => none
  | .indexerStateAnswered call answer now =>
      match store.calls.lookup call with
      | some ⟨manual, .indexerState txHash chainHeight⟩ =>
          some (store.indexerStateAnswered tryParse call manual txHash
            chainHeight answer now)
      | _ => none
  | .refreshed call =>
      match store.calls.lookup call with
      | some ⟨_, .internal⟩ =>
          some
            { store with
              value := { store.value with loading := false }
              calls := store.calls.erase call }
      | _ => none

/-! ## One turn -/

/-- The notice is that of the bound transaction, and a height that a refresh
has written into it since the bind is one that the chain has reported for
it. -/
structure Tracks (store : TrackingStore) : Prop where
  txHash : ∀ hash, store.bound = some hash →
    store.value.reorgNotice.txHash = hash
  height : ∀ hash, store.bound = some hash → store.refreshed = true →
    0 < store.value.reorgNotice.previousHeight →
    (hash, store.value.reorgNotice.previousHeight) ∈ store.reported

/-- A refresh that writes the notice was started for the bound transaction,
and finds no positive height in it that was not reported for that one. -/
def WritesBound (store : TrackingStore) : TrackingTurn → Prop
  | .indexerStateAnswered call (.ok body) _ =>
      ∀ manual txHash chainHeight tipHeight hash,
        store.calls.lookup call =
          some ⟨manual, .indexerState txHash chainHeight⟩ →
        toInt tryParse (body.get "tipHeight") = .ok tipHeight →
        store.bound = some hash →
        txHash = hash ∧
          (0 < store.value.reorgNotice.previousHeight →
            (hash, store.value.reorgNotice.previousHeight) ∈
              store.reported)
  | _ => True

/-- Every refresh that waits for the indexer carries a reported height. -/
def Traced (store : TrackingStore) : Prop :=
  ∀ call manual txHash chainHeight,
    store.calls.lookup call =
      some ⟨manual, .indexerState txHash chainHeight⟩ →
    (txHash, chainHeight) ∈ store.reported

/-- What a turn does to the notice. -/
inductive Moves (store : TrackingStore) (turn : TrackingTurn)
    (next : TrackingStore) : Prop
  | binds (hash : Utf16)
      (htxHash : next.value.reorgNotice.txHash = hash)
      (hbound : next.bound = some hash) (hrefreshed : next.refreshed = false)
      (hquiet : store.WritesBound tryParse turn)
  | keeps
      (htxHash : next.value.reorgNotice.txHash =
        store.value.reorgNotice.txHash)
      (hheight : next.value.reorgNotice.previousHeight =
        store.value.reorgNotice.previousHeight)
      (hbound : next.bound = store.bound)
      (hrefreshed : next.refreshed = store.refreshed)
      (hreported : store.reported ⊆ next.reported)
      (hquiet : store.WritesBound tryParse turn)
  | writes (call : ℕ) (manual : Bool) (txHash : Utf16)
      (chainHeight tipHeight now : ℤ) (body : JsonMap)
      (hturn : turn = .indexerStateAnswered call (.ok body) now)
      (hcall : store.calls.lookup call =
        some ⟨manual, .indexerState txHash chainHeight⟩)
      (htip : toInt tryParse (body.get "tipHeight") = .ok tipHeight)
      (hnext : next =
        store.write call manual txHash chainHeight tipHeight now)

variable {tryParse} {store next : TrackingStore} {turn : TrackingTurn}

theorem fail_moves
    (call : ℕ) (manual : Bool) (errorText : Option Utf16) (now : ℤ)
    (hquiet : store.WritesBound tryParse turn) :
    store.Moves tryParse turn (store.fail call manual errorText now) :=
  .keeps rfl rfl rfl rfl (List.Subset.refl _) hquiet

theorem moves_of_step (hstep : store.step tryParse turn = some next) :
    store.Moves tryParse turn next := by
  cases turn with
  | bindTrackedTx txHash now =>
      obtain rfl := Option.some.inj hstep
      exact .binds txHash rfl rfl rfl trivial
  | refreshReorgStatus =>
      obtain rfl := Option.some.inj hstep
      unfold refreshReorgStatus
      split_ifs
      · exact .keeps rfl rfl rfl rfl (List.Subset.refl _) trivial
      · exact .keeps rfl rfl rfl rfl (List.Subset.refl _) trivial
  | runAutoRefreshBurst =>
      obtain rfl := Option.some.inj hstep
      unfold runAutoRefreshBurst
      split_ifs
      · exact .keeps rfl rfl rfl rfl (List.Subset.refl _) trivial
      · exact .keeps rfl rfl rfl rfl (List.Subset.refl _) trivial
  | chainTxAnswered call answer now =>
      simp only [step] at hstep
      split at hstep
      next manual txHash hcall =>
        obtain rfl := Option.some.inj hstep
        unfold chainTxAnswered
        split
        · exact fail_moves call manual _ now trivial
        · split
          · exact fail_moves call manual none now trivial
          · exact .keeps rfl rfl rfl rfl (List.subset_append_left _ _)
              trivial
      next => cases hstep
  | indexerStateAnswered call answer now =>
      simp only [step] at hstep
      split at hstep
      next manual txHash chainHeight hcall =>
        obtain rfl := Option.some.inj hstep
        unfold indexerStateAnswered
        cases answer with
        | error failure => exact fail_moves call manual _ now trivial
        | ok body =>
            simp only
            split
            next err htip =>
              apply fail_moves
              intro manual' txHash' chainHeight' tipHeight hash _ htip' _
              rw [htip] at htip'
              cases htip'
            next tipHeight htip =>
              exact .writes call manual txHash chainHeight tipHeight now body
                rfl hcall htip rfl
      next => cases hstep
  | refreshed call =>
      simp only [step] at hstep
      split at hstep
      next =>
        obtain rfl := Option.some.inj hstep
        exact .keeps rfl rfl rfl rfl (List.Subset.refl _) trivial
      next => cases hstep

/-! ## Runs -/

theorem Traced.start (htraced : store.Traced) (manual : Bool) :
    (store.start manual).Traced := by
  intro call other txHash chainHeight hcall
  simp only [TrackingStore.start, KeyedMap.lookup_insert_eq] at hcall
  split_ifs at hcall with hnew
  · cases hcall
  · exact htraced call other txHash chainHeight hcall

theorem Traced.finish
    (htraced : store.Traced) (call : ℕ) (manual : Bool) :
    (store.finish call manual).Traced := by
  intro other otherManual txHash chainHeight hcall
  unfold TrackingStore.finish at hcall
  cases manual with
  | true =>
      simp only [if_true, KeyedMap.lookup_insert_eq] at hcall
      split_ifs at hcall with hsame
      · cases hcall
      · exact htraced other otherManual txHash chainHeight hcall
  | false =>
      simp only [Bool.false_eq_true, if_false, KeyedMap.lookup_erase_eq]
        at hcall
      split_ifs at hcall with hsame
      exact htraced other otherManual txHash chainHeight hcall

theorem Traced.report
    (htraced : store.Traced) (call : ℕ) (manual : Bool) (txHash : Utf16)
    (chainHeight : ℤ) :
    (store.report call manual txHash chainHeight).Traced := by
  intro other otherManual otherHash otherHeight hcall
  simp only [TrackingStore.report, KeyedMap.lookup_insert_eq] at hcall ⊢
  split_ifs at hcall with hsame
  · simp only [Option.some.injEq, Refresh.mk.injEq,
      RefreshAwait.indexerState.injEq] at hcall
    rw [← hcall.2.1, ← hcall.2.2]
    exact List.mem_append_right _ (List.mem_singleton.mpr rfl)
  · exact List.mem_append_left _
      (htraced other otherManual otherHash otherHeight hcall)

theorem Traced.step
    (htraced : store.Traced) (hstep : store.step tryParse turn = some next) :
    next.Traced := by
  cases turn with
  | bindTrackedTx txHash now =>
      obtain rfl := Option.some.inj hstep
      exact htraced
  | refreshReorgStatus =>
      obtain rfl := Option.some.inj hstep
      unfold refreshReorgStatus
      split_ifs
      · exact htraced
      · exact Traced.start htraced true
  | runAutoRefreshBurst =>
      obtain rfl := Option.some.inj hstep
      unfold runAutoRefreshBurst
      split_ifs
      · exact htraced
      · exact htraced.start false
  | chainTxAnswered call answer now =>
      simp only [TrackingStore.step] at hstep
      split at hstep
      next manual txHash hcall =>
        obtain rfl := Option.some.inj hstep
        unfold chainTxAnswered
        split
        · exact Traced.finish htraced call manual
        · split
          · exact Traced.finish htraced call manual
          · exact htraced.report call manual txHash _
      next => cases hstep
  | indexerStateAnswered call answer now =>
      simp only [TrackingStore.step] at hstep
      split at hstep
      next manual txHash chainHeight hcall =>
        obtain rfl := Option.some.inj hstep
        unfold indexerStateAnswered
        split
        · exact Traced.finish htraced call manual
        · split
          · exact Traced.finish htraced call manual
          · exact Traced.finish htraced call manual
      next => cases hstep
  | refreshed call =>
      simp only [TrackingStore.step] at hstep
      split at hstep
      next =>
        obtain rfl := Option.some.inj hstep
        exact Traced.finish htraced call false
      next => cases hstep

theorem Tracks.keeps
    (htracks : store.Tracks)
    (htxHash : next.value.reorgNotice.txHash =
      store.value.reorgNotice.txHash)
    (hheight : next.value.reorgNotice.previousHeight =
      store.value.reorgNotice.previousHeight)
    (hbound : next.bound = store.bound)
    (hrefreshed : next.refreshed = store.refreshed)
    (hreported : store.reported ⊆ next.reported) : next.Tracks := by
  constructor
  · intro hash hhash
    rw [htxHash]
    exact htracks.txHash hash (hbound ▸ hhash)
  · intro hash hhash hrefresh hpositive
    rw [hheight] at hpositive ⊢
    rw [hbound] at hhash
    rw [hrefreshed] at hrefresh
    exact hreported (htracks.height hash hhash hrefresh hpositive)

theorem tracks_write_iff
    {call : ℕ} {manual : Bool} {txHash : Utf16} {chainHeight : ℤ}
    (hreported : (txHash, chainHeight) ∈ store.reported)
    (tipHeight now : ℤ) :
    (store.write call manual txHash chainHeight tipHeight now).Tracks ↔
      ∀ hash, store.bound = some hash →
        txHash = hash ∧
          (0 < store.value.reorgNotice.previousHeight →
            (hash, store.value.reorgNotice.previousHeight) ∈
              store.reported) := by
  constructor
  · intro htracks hash hbound
    refine ⟨htracks.txHash hash hbound, ?_⟩
    intro hpositive
    have hheight := htracks.height hash hbound rfl
    simp only [write, finish, if_pos hpositive] at hheight
    exact hheight hpositive
  · intro hwrites
    constructor
    · exact fun hash hbound => (hwrites hash hbound).1
    · intro hash hbound _ hpositive
      obtain ⟨hsame, hprevious⟩ := hwrites hash hbound
      simp only [write, finish] at hpositive ⊢
      split_ifs at hpositive ⊢ with hold
      · exact hprevious hold
      · rw [← hsame]
        exact hreported

theorem Tracks.step_iff
    (htraced : store.Traced) (htracks : store.Tracks)
    (hstep : store.step tryParse turn = some next) :
    next.Tracks ↔ store.WritesBound tryParse turn := by
  cases moves_of_step hstep with
  | binds hash htxHash hbound hrefreshed hquiet =>
      refine iff_of_true ⟨?_, ?_⟩ hquiet
      · intro other hother
        rw [hbound, Option.some.injEq] at hother
        rw [htxHash, hother]
      · intro other _ hrefresh
        rw [hrefreshed] at hrefresh
        cases hrefresh
  | keeps htxHash hheight hbound hrefreshed hreported hquiet =>
      exact iff_of_true
        (htracks.keeps htxHash hheight hbound hrefreshed hreported) hquiet
  | writes call manual txHash chainHeight tipHeight now body hturn hcall htip
      hnext =>
      have hreported := htraced call manual txHash chainHeight hcall
      rw [hnext, tracks_write_iff hreported, hturn]
      constructor
      · intro hwrites other otherHash otherHeight otherTip hash hother _
          hbound
        rw [hcall, Option.some.injEq, Refresh.mk.injEq,
          RefreshAwait.indexerState.injEq] at hother
        rw [← hother.2.1]
        exact hwrites hash hbound
      · intro hwrites hash hbound
        exact hwrites manual txHash chainHeight tipHeight hash hcall htip
          hbound

/-- The runs in which the notice always is that of the bound transaction are
those in which every refresh that writes was started for it, and finds no
height of another one. -/
theorem tracked_tx_binding_iff
    (tryParse : Utf16 → Option ℤ) (createdAt : ℤ)
    (turns : List TrackingTurn) :
    (∀ store, Visits (step tryParse) (initial createdAt) turns store →
        store.Tracks) ↔
      Guarded (step tryParse) (WritesBound tryParse) (initial createdAt)
        turns := by
  apply forall_visits_iff_guarded Traced
  · exact fun _ _ _ htraced hstep => htraced.step hstep
  · exact fun _ _ _ htraced htracks hstep => htracks.step_iff htraced hstep
  · intro call manual txHash chainHeight hcall
    cases hcall
  · constructor
    · intro hash hbound
      cases hbound
    · intro hash hbound
      cases hbound

end TrackingStore

def heightAnswer (height : ℤ) : Answer :=
  .ok [("tx_response", .map [("height", .int height)])]

def tipAnswer (height : ℤ) : Answer :=
  .ok [("tipHeight", .int height)]

/-- The second transaction is bound while the refresh of the first one waits
for the indexer. -/
def boundDuringRefresh : List TrackingTurn :=
  [.bindTrackedTx "A0B1" 1, .refreshReorgStatus,
    .chainTxAnswered 0 (heightAnswer 10) 2, .bindTrackedTx "C2D3" 3,
    .indexerStateAnswered 0 (tipAnswer 12) 4]

/-- The second transaction is bound after the refresh, and refreshed. -/
def boundAfterRefresh : List TrackingTurn :=
  [.bindTrackedTx "A0B1" 1, .runAutoRefreshBurst,
    .chainTxAnswered 0 (heightAnswer 10) 2,
    .indexerStateAnswered 0 (tipAnswer 12) 3, .bindTrackedTx "C2D3" 4,
    .runAutoRefreshBurst, .chainTxAnswered 1 (heightAnswer 11) 5,
    .indexerStateAnswered 1 (tipAnswer 12) 6]

theorem tracked_tx_binding_lost :
    (¬ ∃ tryParse createdAt, ∀ turns store,
      exec (TrackingStore.step tryParse) (.initial createdAt) turns =
        some store →
      ∀ hash, store.bound = some hash →
        store.value.reorgNotice.txHash = hash) ∧
      ¬ ∃ tryParse createdAt, ∀ turns store,
        exec (TrackingStore.step tryParse) (.initial createdAt) turns =
          some store →
        ∀ hash, store.bound = some hash → store.refreshed = true →
          0 < store.value.reorgNotice.previousHeight →
          (hash, store.value.reorgNotice.previousHeight) ∈
            store.reported := by
  constructor
  · rintro ⟨tryParse, createdAt, hall⟩
    have hhash := hall boundDuringRefresh _ rfl "C2D3" rfl
    have hsame : ("A0B1" : Utf16) = "C2D3" := hhash
    exact absurd hsame (by decide)
  · rintro ⟨tryParse, createdAt, hall⟩
    have hheight := hall boundAfterRefresh _ rfl "C2D3" rfl rfl
      (show (0 : ℤ) < 10 by decide)
    have hreported : (("C2D3" : Utf16), (10 : ℤ)) ∈
        [(("A0B1" : Utf16), (10 : ℤ)), ("C2D3", 11)] := hheight
    exact absurd hreported (by decide)

end SoulonWallet.Dapp
