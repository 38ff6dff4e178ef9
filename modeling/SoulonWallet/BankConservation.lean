import SoulonWallet.ChainTx
import SoulonWallet.LabelledRun
import SoulonWallet.WrappingInt64

/-!
# Conservation of the bank ledger

The balances and their sum are followed through genesis and through every
run of transactions, with the wrapping `int64` additions of the source.  A
genesis line or a transfer that credits an account past `2 ^ 63 - 1` makes a
balance negative or loses `2 ^ 64` from the sum; every other run keeps the
ledger.  The two conditions together are exact.
-/

namespace SoulonWallet.Chain

open LabelledRun
open WrappingInt64

namespace Bank

/-- Every balance is nonnegative and together they are `total`. -/
def Keeper.Conserves (keeper : Keeper) (total : ℤ) : Prop :=
  (∀ address, 0 ≤ (keeper.balance address).toInt) ∧
    keeper.balances.weight Int64.toInt = total

def listedAmount (balances : List Balance) : ℤ :=
  (balances.map fun balance => balance.amount.toInt).sum

def listedFor (address : String) (balances : List Balance) : ℤ :=
  listedAmount (balances.filter fun balance => balance.address = address)

theorem listedFor_cons
    (address : String) (balance : Balance) (rest : List Balance) :
    listedFor address (balance :: rest) =
      (if balance.address = address then balance.amount.toInt else 0) +
        listedFor address rest := by
  by_cases heq : balance.address = address
  · simp [listedFor, listedAmount, heq]
  · simp [listedFor, listedAmount, heq]

theorem balance_setBalance_self
    (keeper : Keeper) (address : String) (amount : Int64) :
    (keeper.setBalance address amount).balance address = amount :=
  KeyedMap.get_insert_self keeper.balances address amount 0

theorem balance_setBalance_of_ne
    (keeper : Keeper) {address other : String} (amount : Int64)
    (hne : other ≠ address) :
    (keeper.setBalance address amount).balance other =
      keeper.balance other :=
  KeyedMap.get_insert_of_ne keeper.balances amount 0 hne

theorem weight_setBalance
    (keeper : Keeper) (address : String) (amount : Int64) :
    (keeper.setBalance address amount).balances.weight Int64.toInt =
      keeper.balances.weight Int64.toInt + amount.toInt -
        (keeper.balance address).toInt := by
  have hweight :=
    KeyedMap.weight_insert Int64.toInt keeper.balances address amount 0
      toInt_zero
  unfold Keeper.setBalance Keeper.balance
  linarith

/-! ## Genesis -/

theorem addBalances_cons_accepted
    {keeper : Keeper} {balance : Balance} {rest : List Balance}
    (haccepted : (keeper.addBalances (balance :: rest)).2 = .ok ()) :
    0 ≤ balance.amount.toInt ∧
      keeper.addBalances (balance :: rest) =
        (keeper.setBalance balance.address
          (keeper.balance balance.address +
            balance.amount)).addBalances rest := by
  simp only [Keeper.addBalances] at haccepted ⊢
  split_ifs at haccepted ⊢ with haddress hamount
  have hnonneg : ¬ balance.amount.toInt < (0 : Int64).toInt := by
    rw [← Int64.lt_iff_toInt_lt]
    exact hamount
  rw [toInt_zero] at hnonneg
  exact ⟨by omega, rfl⟩

theorem listedFor_nonneg
    {keeper : Keeper} {balances : List Balance}
    (haccepted : (keeper.addBalances balances).2 = .ok ())
    (address : String) : 0 ≤ listedFor address balances := by
  induction balances generalizing keeper with
  | nil => simp [listedFor, listedAmount]
  | cons balance rest ih =>
      obtain ⟨hamount, hstep⟩ := addBalances_cons_accepted haccepted
      rw [hstep] at haccepted
      have hrest := ih haccepted
      rw [listedFor_cons]
      split_ifs
      · omega
      · omega

/-- Either no accumulation has wrapped, and the balances and their sum are
exact, or the sum is short and some address is listed with too much. -/
theorem addBalances_exact_or_short
    {keeper : Keeper} {balances : List Balance}
    (haccepted : (keeper.addBalances balances).2 = .ok ()) :
    ((∀ address,
        ((keeper.addBalances balances).1.balance address).toInt =
          (keeper.balance address).toInt + listedFor address balances) ∧
      (keeper.addBalances balances).1.balances.weight Int64.toInt =
        keeper.balances.weight Int64.toInt + listedAmount balances) ∨
    ((keeper.addBalances balances).1.balances.weight Int64.toInt <
        keeper.balances.weight Int64.toInt + listedAmount balances ∧
      ∃ address,
        2 ^ 63 ≤ (keeper.balance address).toInt +
          listedFor address balances) := by
  induction balances generalizing keeper with
  | nil =>
      left
      simp [Keeper.addBalances, listedFor, listedAmount]
  | cons balance rest ih =>
      obtain ⟨hamount, hstep⟩ := addBalances_cons_accepted haccepted
      rw [hstep] at haccepted ⊢
      have hrest := listedFor_nonneg haccepted balance.address
      have hbranch := ih haccepted
      have hlow := (keeper.balance balance.address).le_toInt
      have hlisted :
          listedAmount (balance :: rest) =
            balance.amount.toInt + listedAmount rest := by
        simp [listedAmount]
      rw [weight_setBalance] at hbranch
      by_cases hfits :
          (keeper.balance balance.address).toInt +
            balance.amount.toInt < 2 ^ 63
      · have hsum := toInt_add_of_lt (by omega) hfits
        have hbalance :
            ∀ address,
              ((keeper.setBalance balance.address
                  (keeper.balance balance.address +
                    balance.amount)).balance address).toInt +
                  listedFor address rest =
                (keeper.balance address).toInt +
                  listedFor address (balance :: rest) := by
          intro address
          rw [listedFor_cons]
          by_cases heq : balance.address = address
          · subst heq
            rw [balance_setBalance_self, hsum, if_pos rfl]
            ring
          · rw [balance_setBalance_of_ne keeper _ (Ne.symm heq),
              if_neg heq]
            ring
        simp only [hbalance, hsum] at hbranch
        rcases hbranch with ⟨hexact, hweight⟩ | ⟨hshort, hover⟩
        · exact Or.inl ⟨hexact, by omega⟩
        · exact Or.inr ⟨by omega, hover⟩
      · have hsum :=
          toInt_add_of_ge (a := keeper.balance balance.address)
            (b := balance.amount) (by omega)
        right
        constructor
        · rcases hbranch with ⟨_, hweight⟩ | ⟨hshort, _⟩ <;> omega
        · refine ⟨balance.address, ?_⟩
          rw [listedFor_cons, if_pos rfl]
          omega

def GenesisState.Fits (state : GenesisState) : Prop :=
  ∀ address, listedFor address state.balances < 2 ^ 63

theorem initGenesis_conserves_iff
    {keeper : Keeper} {state : GenesisState}
    (haccepted : (keeper.initGenesis state).2 = .ok ()) :
    (keeper.initGenesis state).1.Conserves (listedAmount state.balances) ↔
      state.Fits := by
  have hempty : ∀ address,
      ((⟨state.params, ∅⟩ : Keeper).balance address).toInt = 0 := by
    intro address
    rfl
  have hweight :
      (⟨state.params, ∅⟩ : Keeper).balances.weight Int64.toInt = 0 := by
    simp
  have hcases := addBalances_exact_or_short haccepted
  simp only [hempty, hweight, zero_add] at hcases
  rcases hcases with ⟨hexact, htotal⟩ | ⟨hshort, address, hover⟩
  · constructor
    · intro _ address
      rw [← hexact address]
      exact Int64.toInt_lt _
    · intro _
      refine ⟨?_, htotal⟩
      intro address
      unfold Keeper.initGenesis
      rw [hexact address]
      exact listedFor_nonneg haccepted address
  · constructor
    · intro hconserves
      have htotal := hconserves.2
      unfold Keeper.initGenesis at htotal
      omega
    · intro hfits
      have := hfits address
      omega

/-! ## Transfers -/

/-- `Send` gets past its checks and writes. -/
def Keeper.Moves (keeper : Keeper)
    (fromAddress toAddress : String) (amount : Int64) : Prop :=
  keeper.params.defaultSendEnabled = true ∧ ¬ amount ≤ 0 ∧
    fromAddress ≠ "" ∧ toAddress ≠ "" ∧ fromAddress ≠ toAddress ∧
    ¬ keeper.balance fromAddress < amount

theorem send_unchanged_of_not_moves
    {keeper : Keeper} {fromAddress toAddress : String} {amount : Int64}
    (hmoves : ¬ keeper.Moves fromAddress toAddress amount) :
    (keeper.send fromAddress toAddress amount).1 = keeper := by
  unfold Keeper.send
  split_ifs with henabled hamount hempty hsame henough
  · rfl
  · rfl
  · rfl
  · rfl
  · rfl
  · exact absurd
      ⟨by simpa using henabled, hamount, (not_or.mp hempty).1,
        (not_or.mp hempty).2, hsame, henough⟩ hmoves

/-- A transfer that writes keeps the ledger exactly when the receiver has
room for the amount. -/
theorem send_conserves_iff
    {keeper : Keeper} {fromAddress toAddress : String} {amount : Int64}
    {total : ℤ} (hconserves : keeper.Conserves total)
    (hmoves : keeper.Moves fromAddress toAddress amount) :
    (keeper.send fromAddress toAddress amount).1.Conserves total ↔
      (keeper.balance toAddress).toInt + amount.toInt < 2 ^ 63 := by
  rcases hmoves with ⟨henabled, hamount, hfrom, hto, hne, henough⟩
  rcases hconserves with ⟨hnonneg, htotal⟩
  have hpositive : 0 < amount.toInt := by
    rw [Int64.le_iff_toInt_le, toInt_zero] at hamount
    omega
  have hcovered : amount.toInt ≤ (keeper.balance fromAddress).toInt := by
    rw [Int64.lt_iff_toInt_lt] at henough
    omega
  have hdebit := toInt_sub_of_le hpositive.le hcovered
  have hsender := hnonneg fromAddress
  have hreceiver := hnonneg toAddress
  let debited :=
    keeper.setBalance fromAddress (keeper.balance fromAddress - amount)
  have hunchanged : debited.balance toAddress = keeper.balance toAddress :=
    balance_setBalance_of_ne keeper _ (Ne.symm hne)
  have hresult :
      (keeper.send fromAddress toAddress amount).1 =
        debited.setBalance toAddress
          (keeper.balance toAddress + amount) := by
    rw [← hunchanged]
    simp [Keeper.send, henabled, hamount, hfrom, hto, hne, henough, debited]
  rw [hresult]
  have hdebitedWeight :
      debited.balances.weight Int64.toInt = total - amount.toInt := by
    rw [weight_setBalance, htotal, hdebit]
    ring
  constructor
  · intro hnext
    by_contra hover
    have hwrapped :=
      toInt_add_of_ge (a := keeper.balance toAddress) (b := amount)
        (by omega)
    have hnegative := hnext.1 toAddress
    rw [balance_setBalance_self, hwrapped] at hnegative
    have := (keeper.balance toAddress).toInt_lt
    have := amount.toInt_lt
    omega
  · intro hfits
    have hcredit :=
      toInt_add_of_lt (a := keeper.balance toAddress) (b := amount)
        (by omega) hfits
    constructor
    · intro address
      by_cases htoEq : address = toAddress
      · subst htoEq
        rw [balance_setBalance_self, hcredit]
        omega
      · rw [balance_setBalance_of_ne _ _ htoEq]
        by_cases hfromEq : address = fromAddress
        · subst hfromEq
          rw [balance_setBalance_self, hdebit]
          omega
        · rw [balance_setBalance_of_ne _ _ hfromEq]
          exact hnonneg address
    · rw [weight_setBalance, hdebitedWeight, hunchanged, hcredit]
      ring

end Bank

/-! ## Runs of transactions -/

def ChainApp.step (app : ChainApp) (call : ℤ × Tx) : Option ChainApp :=
  some (app.executeTx call.1 call.2).1

theorem ChainApp.executes_of_step
    {app next : ChainApp} {call : ℤ × Tx}
    (hstep : app.step call = some next) :
    ∃ outcome, app.Executes call.1 call.2 next outcome := by
  obtain rfl := Option.some.inj hstep
  exact ⟨_, app.executeTx_executes call.1 call.2⟩

/-- A transfer that will be written finds room at the receiver. -/
def ChainApp.CreditFits (app : ChainApp) (call : ℤ × Tx) : Prop :=
  call.2.type = txBankSend → validateTx call.2 = .ok () →
    app.bankKeeper.Moves call.2.fromAddress call.2.toAddress
      call.2.amount →
    (app.bankKeeper.balance call.2.toAddress).toInt +
      call.2.amount.toInt < 2 ^ 63

theorem ChainApp.step_conserves_iff
    {app next : ChainApp} {call : ℤ × Tx} {total : ℤ}
    (hconserves : app.bankKeeper.Conserves total)
    (hstep : app.step call = some next) :
    next.bankKeeper.Conserves total ↔ app.CreditFits call := by
  have hnext : next = (app.executeTx call.1 call.2).1 :=
    (Option.some.inj hstep).symm
  subst hnext
  by_cases htype : call.2.type = txBankSend
  · cases hvalid : validateTx call.2 with
    | error err =>
        rw [executeTx_of_invalid app call.1 hvalid]
        simp [ChainApp.CreditFits, hvalid, hconserves]
    | ok _ =>
        rw [executeTx_bankSend app call.1 hvalid htype]
        by_cases hmoves :
            app.bankKeeper.Moves call.2.fromAddress call.2.toAddress
              call.2.amount
        · simp only [ChainApp.CreditFits, htype, hvalid, hmoves,
            forall_const]
          exact Bank.send_conserves_iff hconserves hmoves
        · simp [ChainApp.CreditFits, hmoves, hconserves,
            Bank.send_unchanged_of_not_moves hmoves]
  · rw [executeTx_bankKeeper_of_ne app call.1 htype]
    simp [ChainApp.CreditFits, htype, hconserves]

def ChainApp.initBank (app : ChainApp) (state : Bank.GenesisState) :
    ChainApp :=
  { app with bankKeeper := (app.bankKeeper.initGenesis state).1 }

/-- The ledger is conserved in every state of a run exactly when the genesis
lists no address beyond `int64` and every written transfer finds room at
its receiver. -/
theorem ChainApp.bank_conserved_iff
    (app : ChainApp) (state : Bank.GenesisState) (calls : List (ℤ × Tx))
    (haccepted : (app.bankKeeper.initGenesis state).2 = .ok ()) :
    (∀ reached, Visits ChainApp.step (app.initBank state) calls reached →
        reached.bankKeeper.Conserves
          (Bank.listedAmount state.balances)) ↔
      state.Fits ∧
        Guarded ChainApp.step ChainApp.CreditFits (app.initBank state)
          calls := by
  have hgenesis := Bank.initGenesis_conserves_iff haccepted
  have hrun :
      (app.initBank state).bankKeeper.Conserves
          (Bank.listedAmount state.balances) →
        ((∀ reached, Visits ChainApp.step (app.initBank state) calls reached →
          reached.bankKeeper.Conserves
            (Bank.listedAmount state.balances)) ↔
          Guarded ChainApp.step ChainApp.CreditFits (app.initBank state)
            calls) := by
    intro hstart
    apply forall_visits_iff_guarded (fun _ : ChainApp => True)
      (fun reached : ChainApp =>
        reached.bankKeeper.Conserves (Bank.listedAmount state.balances))
    · intro _ _ _ _ _
      trivial
    · intro reached call next _ hgood hstep
      exact step_conserves_iff hgood hstep
    · trivial
    · exact hstart
  constructor
  · intro hall
    have hstart := hall _ ⟨[], List.nil_prefix, rfl⟩
    exact ⟨hgenesis.mp hstart, (hrun hstart).mp hall⟩
  · intro hcond
    exact (hrun (hgenesis.mpr hcond.1)).mpr hcond.2

def aliceGenesis : Bank.GenesisState where
  params := ⟨true⟩
  balances := [⟨"alice", 100⟩]

def aliceToBob : Tx where
  type := "bank_send"
  fromAddress := "alice"
  toAddress := "bob"
  amount := 30

theorem bank_conserved_aliceToBob :
    ∃ reached,
      exec ChainApp.step (newChainApp.initBank aliceGenesis)
          [(0, aliceToBob)] = some reached ∧
        reached.bankKeeper.balance "bob" = 30 ∧
        reached.bankKeeper.Conserves 100 := by
  have haccepted :
      (newChainApp.bankKeeper.initGenesis aliceGenesis).2 = .ok () := by
    decide
  have hfits : aliceGenesis.Fits := by
    intro address
    have hcons := Bank.listedFor_cons address ⟨"alice", 100⟩ []
    have hamount : (100 : Int64).toInt = 100 := by decide
    simp only [Bank.listedFor, Bank.listedAmount, List.filter_nil,
      List.map_nil, List.sum_nil] at hcons
    unfold aliceGenesis Bank.listedFor Bank.listedAmount
    rw [hcons, hamount]
    split_ifs <;> norm_num
  have hguarded :
      Guarded ChainApp.step ChainApp.CreditFits
        (newChainApp.initBank aliceGenesis) [(0, aliceToBob)] := by
    refine ⟨?_, trivial⟩
    intro _ _ _
    decide
  have hconserved := (ChainApp.bank_conserved_iff newChainApp aliceGenesis
    [(0, aliceToBob)] haccepted).mpr ⟨hfits, hguarded⟩
  exact ⟨_, rfl, by decide,
    hconserved _ ⟨[(0, aliceToBob)], List.prefix_rfl, rfl⟩⟩

/-- Two lines for one address whose sum is `2 ^ 63`. -/
def overflowingGenesis : Bank.GenesisState where
  params := ⟨true⟩
  balances := [⟨"alice", 9223372036854775807⟩, ⟨"alice", 1⟩]

theorem bank_not_conserved :
    ¬ ∀ (app : ChainApp) (state : Bank.GenesisState)
      (calls : List (ℤ × Tx)) (reached : ChainApp),
      (app.bankKeeper.initGenesis state).2 = .ok () →
      exec ChainApp.step (app.initBank state) calls = some reached →
      reached.bankKeeper.Conserves (Bank.listedAmount state.balances) := by
  intro hall
  have haccepted :
      (newChainApp.bankKeeper.initGenesis overflowingGenesis).2 = .ok () := by
    decide
  have hconserves :=
    hall newChainApp overflowingGenesis [] _ haccepted rfl
  have hnegative :
      ((newChainApp.initBank overflowingGenesis).bankKeeper.balance
        "alice").toInt = -9223372036854775808 := by
    decide
  have hnonneg := hconserves.1 "alice"
  rw [hnegative] at hnonneg
  exact absurd hnonneg (by decide)

end SoulonWallet.Chain
