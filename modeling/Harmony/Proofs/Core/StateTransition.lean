import Harmony.Core.StateTransition

/-!
What applying a message does to the block's gas pool: every error it returns, with what it left
in the pool, and the pool's accounting when it succeeds.
-/

namespace Harmony

namespace Core

open Go

namespace StateTransition

variable {S : Type} (db : StateDB S) (msg : Message)

/-- Taking gas succeeds exactly when the pool holds it, and leaves the difference. -/
theorem SubGas_eq_ok {gp gp' : GasPool} {amount : UInt64} :
    gp.SubGas amount = .ok gp' ↔ amount ≤ gp ∧ gp' = gp - amount := by
  unfold GasPool.SubGas
  by_cases short : gp < amount
  · simp [short, UInt64.not_le.mpr short]
  · simp [short, UInt64.not_lt.mp short, eq_comm]

/-- The pool's only error is `ErrGasLimitReached`. -/
theorem SubGas_error {gp : GasPool} {amount : UInt64} {err : String}
    (failed : gp.SubGas amount = .error err) : err = "gas limit reached" := by
  unfold GasPool.SubGas at failed
  split at failed
  · cases failed
    rfl
  · cases failed

/-- Returning gas that does not panic adds it without wrapping. -/
theorem AddGas_eq_ok {gp gp' : GasPool} {amount : UInt64} (added : gp.AddGas amount = .ok gp') :
    gp'.toNat = gp.toNat + amount.toNat := by
  unfold GasPool.AddGas at added
  split at added
  · cases added
  · rename_i fits
    cases added
    -- Below the panic bound the sum does not wrap.
    have bounded := UInt64.toNat_lt amount
    have room : gp.toNat ≤ 2 ^ 64 - 1 - amount.toNat := by
      rw [UInt64.not_lt, UInt64.le_iff_toNat_le, UInt64.toNat_sub_of_le _ _ ?_] at fits
      · simpa using fits
      · rw [UInt64.le_iff_toNat_le]
        simp
        omega
    rw [UInt64.toNat_add]
    omega

/-- Buying gas succeeds exactly when the sender can pay and the pool holds the gas. -/
theorem buyGas_eq_ok {st st' : StateTransition S} :
    buyGas db msg st = .ok st' ↔
      (msg.Gas.toNat : Int) * msg.GasPrice ≤ db.GetBalance st.state msg.From ∧ msg.Gas ≤ st.gp ∧
        st' = { gp := st.gp - msg.Gas, gas := st.gas + msg.Gas, initialGas := msg.Gas,
                state := db.SubBalance st.state msg.From ((msg.Gas.toNat : Int) * msg.GasPrice) } := by
  unfold buyGas
  by_cases poor : db.GetBalance st.state msg.From < (msg.Gas.toNat : Int) * msg.GasPrice
  · simp only [poor, if_true, reduceCtorEq, false_iff, not_and]
    intro funded
    omega
  · simp only [poor, if_false]
    cases taken : st.gp.SubGas msg.Gas with
    | error err =>
      have short : ¬ msg.Gas ≤ st.gp := by
        intro enough
        simp [GasPool.SubGas, UInt64.not_lt.mpr enough] at taken
      simp [short]
    | ok gp =>
      obtain ⟨enough, rfl⟩ := SubGas_eq_ok.mp taken
      simp only [Except.ok.injEq, enough, true_and]
      constructor
      · rintro rfl
        exact ⟨by omega, rfl⟩
      · rintro ⟨-, rfl⟩
        rfl

/-- Buying gas fails only for the sender's balance or the pool. -/
theorem buyGas_error {st : StateTransition S} {err : String} (failed : buyGas db msg st = .error err) :
    err = "insufficient balance to pay for gas" ∨ err = "gas limit reached" := by
  unfold buyGas at failed
  by_cases poor : db.GetBalance st.state msg.From < (msg.Gas.toNat : Int) * msg.GasPrice
  · simp only [poor, if_true, Except.error.injEq] at failed
    exact .inl failed.symm
  · simp only [poor, if_false] at failed
    cases taken : st.gp.SubGas msg.Gas with
    | error e =>
      rw [taken, Except.error.injEq] at failed
      exact .inr (failed ▸ SubGas_error taken)
    | ok gp =>
      rw [taken] at failed
      cases failed

/-- The checks before execution pass exactly when the nonce matches (or is not checked) and gas is bought. -/
theorem preCheck_eq_ok {st st' : StateTransition S} :
    preCheck db msg st = .ok st' ↔
      (msg.CheckNonce = false ∨ db.GetNonce st.state msg.From = msg.Nonce) ∧
        buyGas db msg st = .ok st' := by
  unfold preCheck
  by_cases high : msg.CheckNonce && db.GetNonce st.state msg.From < msg.Nonce
  · simp only [high, if_true, reduceCtorEq, false_iff, not_and]
    intro nonce
    simp only [Bool.and_eq_true, decide_eq_true_eq] at high
    rcases nonce with unchecked | same
    · simp [unchecked] at high
    · simp [same] at high
  · by_cases low : msg.CheckNonce && db.GetNonce st.state msg.From > msg.Nonce
    · simp only [high, low, if_true, if_false, reduceCtorEq, false_iff, not_and]
      intro nonce
      simp only [Bool.and_eq_true, decide_eq_true_eq] at low
      rcases nonce with unchecked | same
      · simp [unchecked] at low
      · simp [same] at low
    · rw [if_neg high, if_neg low, iff_and_self]
      intro _
      simp only [Bool.and_eq_true, decide_eq_true_eq, not_and] at high low
      -- A checked nonce is neither above nor below the state's, so it is the state's.
      cases checked : msg.CheckNonce
      · exact .inl rfl
      · exact .inr (UInt64.le_antisymm (UInt64.not_lt.mp (low checked))
          (UInt64.not_lt.mp (high checked)))

/-- The checks before execution fail with a nonce error or a gas-buying error. -/
theorem preCheck_error {st : StateTransition S} {err : String}
    (failed : preCheck db msg st = .error err) :
    err = "nonce too high" ∨ err = "nonce too low" ∨ err = "insufficient balance to pay for gas" ∨
      err = "gas limit reached" := by
  unfold preCheck at failed
  split at failed
  · cases failed
    exact .inl rfl
  · split at failed
    · cases failed
      exact .inr (.inl rfl)
    · exact .inr (.inr (buyGas_error db msg failed))

/-- Spending gas succeeds exactly when the transition has it. -/
theorem useGas_eq_ok {st st' : StateTransition S} {amount : UInt64} :
    useGas st amount = .ok st' ↔ amount ≤ st.gas ∧ st' = { st with gas := st.gas - amount } := by
  unfold useGas
  by_cases short : st.gas < amount
  · simp [short, UInt64.not_le.mpr short]
  · simp [short, UInt64.not_lt.mp short, eq_comm]

/-- Spending more gas than the transition has is running out of gas. -/
theorem useGas_of_lt {st : StateTransition S} {amount : UInt64} (short : st.gas < amount) :
    useGas st amount = .error "out of gas" := by
  simp [useGas, short]

/-- Spending gas fails only by running out of it. -/
theorem useGas_error {st : StateTransition S} {amount : UInt64} {err : String}
    (failed : useGas st amount = .error err) : err = "out of gas" := by
  unfold useGas at failed
  split at failed
  · cases failed
    rfl
  · cases failed

/-- Pricing the data fails only by running out of gas. -/
theorem IntrinsicGas_error {data : Bytes} {contractCreation homestead : Bool} {err : String}
    (failed : IntrinsicGas data contractCreation homestead = .error err) : err = "out of gas" := by
  unfold IntrinsicGas at failed
  dsimp only at failed
  split_ifs at failed <;> cases failed <;> rfl

/-- Running the code leaves the pool and the gas bought as they were. -/
theorem run_fields (evm : EVM S) (st : StateTransition S) :
    (run db msg evm st).1.gp = st.gp ∧ (run db msg evm st).1.initialGas = st.initialGas := by
  unfold run
  cases msg.To <;> exact ⟨rfl, rfl⟩

/--
Every error of `TransitionDb`, with the pool it leaves: the checks made before gas is bought leave
the pool as it was, and every later error leaves it short of all the gas the message bought.
-/
theorem TransitionDb_error {evm : EVM S} {st st' : StateTransition S} {err : String}
    (failed : TransitionDb db msg evm st = .ok (st', .error err)) :
    (st'.gp = st.gp ∧ (err = "nonce too high" ∨ err = "nonce too low" ∨
        err = "insufficient balance to pay for gas" ∨ err = "gas limit reached")) ∨
      (msg.Gas ≤ st.gp ∧ st'.gp = st.gp - msg.Gas ∧
        (err = "out of gas" ∨ err = "insufficient balance for transfer")) := by
  unfold TransitionDb at failed
  cases pre : preCheck db msg st with
  | error e =>
    rw [pre] at failed
    simp only [pure, Except.pure, Except.ok.injEq, Prod.mk.injEq, Except.error.injEq] at failed
    obtain ⟨rfl, rfl⟩ := failed
    exact .inl ⟨rfl, preCheck_error db msg pre⟩
  | ok st₁ =>
    -- From here on the pool has paid for the message's gas, and no path gives it back but the
    -- refund after a run.
    rw [pre] at failed
    obtain ⟨-, bought⟩ := (preCheck_eq_ok db msg).mp pre
    obtain ⟨-, enough, bought_eq⟩ := (buyGas_eq_ok db msg).mp bought
    have bought_gp : st₁.gp = st.gp - msg.Gas := by rw [bought_eq]
    refine .inr ⟨enough, ?_⟩
    dsimp only at failed
    cases intrinsic : IntrinsicGas msg.Data msg.To.isNone evm.IsHomestead with
    | error e =>
      rw [intrinsic] at failed
      simp only [pure, Except.pure, Except.ok.injEq, Prod.mk.injEq, Except.error.injEq] at failed
      obtain ⟨rfl, rfl⟩ := failed
      exact ⟨bought_gp, .inl (IntrinsicGas_error intrinsic)⟩
    | ok gas =>
      rw [intrinsic] at failed
      dsimp only at failed
      cases used : useGas st₁ gas with
      | error e =>
        rw [used] at failed
        simp only [pure, Except.pure, Except.ok.injEq, Prod.mk.injEq, Except.error.injEq] at failed
        obtain ⟨rfl, rfl⟩ := failed
        exact ⟨bought_gp, .inl (useGas_error used)⟩
      | ok st₂ =>
        rw [used] at failed
        obtain ⟨-, used_eq⟩ := useGas_eq_ok.mp used
        have used_gp : st₂.gp = st.gp - msg.Gas := by
          rw [used_eq]
          exact bought_gp
        dsimp only at failed
        by_cases refused : (run db msg evm st₂).2.2 = some VmError.ErrInsufficientBalance
        · rw [if_pos refused] at failed
          simp only [pure, Except.pure, Except.ok.injEq, Prod.mk.injEq, Except.error.injEq] at failed
          obtain ⟨rfl, rfl⟩ := failed
          exact ⟨(run_fields db msg evm st₂).1.trans used_gp, .inr rfl⟩
        · -- The refunding path returns a result, never an error.
          rw [if_neg refused] at failed
          cases refunded : refundGas db msg (run db msg evm st₂).1 with
          | error e =>
            rw [refunded] at failed
            cases failed
          | ok st₃ =>
            rw [refunded] at failed
            cases failed

/-- The EVM never leaves more gas than it was given, as go-ethereum's `Call` and `Create` do not. -/
structure Metered (evm : EVM S) : Prop where
  create : ∀ s sender data gas value, (evm.Create s sender data gas value).2.2.1 ≤ gas
  call : ∀ s sender recipient data gas value,
    (evm.Call s sender recipient data gas value).2.2.1 ≤ gas

/-- A metered EVM leaves at most the gas it was given. -/
theorem run_gas_le {evm : EVM S} (metered : Metered evm) (st : StateTransition S) :
    (run db msg evm st).1.gas ≤ st.gas := by
  unfold run
  cases msg.To with
  | none => exact metered.create _ _ _ _ _
  | some recipient => exact metered.call _ _ _ _ _ _

/-- Returning gas that keeps the pool within 64 bits does not panic. -/
theorem AddGas_of_lt {gp : GasPool} {amount : UInt64} (fits : gp.toNat + amount.toNat < 2 ^ 64) :
    gp.AddGas amount = .ok (gp + amount) := by
  unfold GasPool.AddGas
  have bounded := UInt64.toNat_lt amount
  -- `0xffffffffffffffff - amount` does not wrap, and the pool stays at or below it.
  have below : gp ≤ 0xffffffffffffffff - amount := by
    rw [UInt64.le_iff_toNat_le, UInt64.toNat_sub_of_le _ _ (UInt64.le_iff_toNat_le.mpr (by simp; omega))]
    simp
    omega
  rw [if_neg (UInt64.not_lt.mpr below)]
  rfl

/--
The refund gives the transition back at most half the gas it used, and returns the gas left with
it to the pool; while the pool and the gas bought fit in 64 bits, that never panics.
-/
theorem refundGas_ok {st : StateTransition S} (spent : st.gas ≤ st.initialGas)
    (room : st.gp.toNat + st.initialGas.toNat < 2 ^ 64) :
    ∃ st', refundGas db msg st = .ok st' ∧ st'.gp.toNat = st.gp.toNat + st'.gas.toNat ∧
      st.gas ≤ st'.gas ∧ 2 * (st'.gas.toNat - st.gas.toNat) ≤ st.initialGas.toNat - st.gas.toNat ∧
      st'.initialGas = st.initialGas := by
  unfold refundGas
  dsimp only
  set refund := min (gasUsed st / 2) (db.GetRefund st.state) with refund_def
  have capped : refund.toNat ≤ (st.initialGas.toNat - st.gas.toNat) / 2 := by
    have half : (gasUsed st / 2).toNat = (st.initialGas.toNat - st.gas.toNat) / 2 := by
      rw [UInt64.toNat_div, gasUsed, UInt64.toNat_sub_of_le _ _ spent]
      rfl
    rw [← half, ← UInt64.le_iff_toNat_le, refund_def]
    exact Std.min_le_left
  have spent' := UInt64.le_iff_toNat_le.mp spent
  have bounded := UInt64.toNat_lt st.initialGas
  -- The gas left and the refund together stay below the gas bought, so nothing wraps.
  have sum : (st.gas + refund).toNat = st.gas.toNat + refund.toNat := by
    rw [UInt64.toNat_add]
    omega
  rw [AddGas_of_lt (by rw [sum]; omega)]
  refine ⟨_, rfl, ?_, ?_, ?_, rfl⟩
  · dsimp only
    rw [UInt64.toNat_add, sum]
    omega
  · rw [UInt64.le_iff_toNat_le, sum]
    omega
  · dsimp only
    rw [sum]
    omega

/--
The transition `TransitionDb` hands to the EVM, with the nonce checked, the message's gas bought
and the intrinsic gas paid; `none` when one of these fails.
-/
def ready (evm : EVM S) (st : StateTransition S) : Option (StateTransition S) :=
  match preCheck db msg st with
  | .error _ => none
  | .ok st =>
    match IntrinsicGas msg.Data msg.To.isNone evm.IsHomestead with
    | .error _ => none
    | .ok gas => (useGas st gas).toOption

/-- The gas the EVM leaves when `TransitionDb` runs the message's code. -/
def gasLeft (evm : EVM S) (st : StateTransition S) : Option UInt64 :=
  (ready db msg evm st).map fun st => (run db msg evm st).1.gas

/-- A transition that fails before it runs the code returns the error without panicking. -/
theorem TransitionDb_of_ready_eq_none {evm : EVM S} {st : StateTransition S}
    (refused : ready db msg evm st = none) :
    ∃ st' err, TransitionDb db msg evm st = .ok (st', .error err) := by
  unfold ready at refused
  unfold TransitionDb
  cases pre : preCheck db msg st with
  | error err => exact ⟨_, _, rfl⟩
  | ok st₁ =>
    rw [pre] at refused
    dsimp only at refused ⊢
    cases intrinsic : IntrinsicGas msg.Data msg.To.isNone evm.IsHomestead with
    | error err => exact ⟨_, _, rfl⟩
    | ok gas =>
      rw [intrinsic] at refused
      dsimp only at refused ⊢
      cases used : useGas st₁ gas with
      | error err => exact ⟨_, _, rfl⟩
      | ok st₂ => simp [used, Except.toOption] at refused

/-- A transition that reaches the code runs it, and refunds unless the value transfer failed. -/
theorem TransitionDb_of_ready_eq_some {evm : EVM S} {st st₂ : StateTransition S}
    (readied : ready db msg evm st = some st₂) :
    TransitionDb db msg evm st =
      if (run db msg evm st₂).2.2 = some .ErrInsufficientBalance then
        pure ((run db msg evm st₂).1, .error VmError.ErrInsufficientBalance.text)
      else (do
        let st ← refundGas db msg (run db msg evm st₂).1
        let st := { st with
          state := db.AddBalance st.state evm.Coinbase ((gasUsed st).toNat * msg.GasPrice) }
        pure (st, .ok ((run db msg evm st₂).2.1, gasUsed st, (run db msg evm st₂).2.2.isSome))) := by
  unfold ready at readied
  unfold TransitionDb
  cases pre : preCheck db msg st with
  | error err => simp [pre] at readied
  | ok st₁ =>
    rw [pre] at readied
    dsimp only at readied ⊢
    cases intrinsic : IntrinsicGas msg.Data msg.To.isNone evm.IsHomestead with
    | error err => simp [intrinsic] at readied
    | ok gas =>
      rw [intrinsic] at readied
      dsimp only at readied ⊢
      cases used : useGas st₁ gas with
      | error err => simp [used, Except.toOption] at readied
      | ok st₂' =>
        simp only [used, Except.toOption, Option.some.injEq] at readied
        subst readied
        rfl

/-- What a fresh transition that reaches the code has paid: the message's gas, from the pool. -/
theorem ready_eq_some {evm : EVM S} {st st₂ : StateTransition S} (fresh : st.gas = 0)
    (readied : ready db msg evm st = some st₂) :
    msg.Gas ≤ st.gp ∧ st₂.gp = st.gp - msg.Gas ∧ st₂.initialGas = msg.Gas ∧ st₂.gas ≤ msg.Gas := by
  unfold ready at readied
  cases pre : preCheck db msg st with
  | error err => simp [pre] at readied
  | ok st₁ =>
    rw [pre] at readied
    dsimp only at readied
    obtain ⟨-, bought⟩ := (preCheck_eq_ok db msg).mp pre
    obtain ⟨-, enough, bought_eq⟩ := (buyGas_eq_ok db msg).mp bought
    cases intrinsic : IntrinsicGas msg.Data msg.To.isNone evm.IsHomestead with
    | error err => simp [intrinsic] at readied
    | ok gas =>
      rw [intrinsic] at readied
      dsimp only at readied
      cases used : useGas st₁ gas with
      | error err => simp [used, Except.toOption] at readied
      | ok st₂' =>
        simp only [used, Except.toOption, Option.some.injEq] at readied
        subst readied bought_eq
        obtain ⟨affordable, rfl⟩ := useGas_eq_ok.mp used
        refine ⟨enough, rfl, rfl, ?_⟩
        simp only [fresh, UInt64.zero_add] at affordable ⊢
        exact UInt64.sub_le affordable

/--
A fresh transition on a metered EVM never panics, and when it succeeds the pool has lost exactly
the gas it reports as used. That gas is at most the gas the EVM burnt and at least half of it: the
refund counter gives back no more than half.
-/
theorem TransitionDb_pays {evm : EVM S} (metered : Metered evm) {st : StateTransition S}
    (fresh : st.gas = 0) :
    ∃ outcome, TransitionDb db msg evm st = .ok outcome ∧
      ∀ st' ret used failed, outcome = (st', .ok (ret, used, failed)) →
        st'.gp.toNat + used.toNat = st.gp.toNat ∧
        ∃ left, gasLeft db msg evm st = some left ∧ left ≤ msg.Gas ∧
          used.toNat ≤ msg.Gas.toNat - left.toNat ∧ msg.Gas.toNat - left.toNat ≤ 2 * used.toNat := by
  cases readied : ready db msg evm st with
  | none =>
    obtain ⟨st', err, failed⟩ := TransitionDb_of_ready_eq_none db msg readied
    exact ⟨_, failed, fun _ _ _ _ same => by cases same⟩
  | some st₂ =>
    obtain ⟨enough, bought_gp, bought_initial, bought_gas⟩ := ready_eq_some db msg fresh readied
    obtain ⟨ran_gp, ran_initial⟩ := run_fields db msg evm st₂
    have ran_gas := UInt64.le_iff_toNat_le.mp (UInt64.le_trans (run_gas_le db msg metered st₂) bought_gas)
    have enough' := UInt64.le_iff_toNat_le.mp enough
    have drained : (run db msg evm st₂).1.gp.toNat = st.gp.toNat - msg.Gas.toNat := by
      rw [ran_gp, bought_gp, UInt64.toNat_sub_of_le _ _ enough]
    -- The pool after buying and the gas bought add up to the pool before, so the refund fits.
    obtain ⟨st₄, refunded, returned, grew, halved, initial⟩ := refundGas_ok db msg
      (by rw [ran_initial, bought_initial, UInt64.le_iff_toNat_le]; exact ran_gas)
      (by rw [drained, ran_initial, bought_initial]; have := UInt64.toNat_lt st.gp; omega)
    rw [TransitionDb_of_ready_eq_some db msg readied]
    split
    · exact ⟨_, rfl, fun _ _ _ _ same => by cases same⟩
    rw [refunded]
    refine ⟨_, rfl, ?_⟩
    rintro st' ret used failed same
    simp only [Except.ok.injEq, Prod.mk.injEq] at same
    obtain ⟨rfl, ⟨-, rfl, -⟩⟩ := same
    rw [ran_initial, bought_initial] at halved initial
    rw [drained] at returned
    have grew' := UInt64.le_iff_toNat_le.mp grew
    have kept : st₄.gas ≤ st₄.initialGas := by
      rw [initial, UInt64.le_iff_toNat_le]
      omega
    -- The gas used is what the refund left of the gas bought.
    have used_eq : (gasUsed st₄).toNat = msg.Gas.toNat - st₄.gas.toNat := by
      rw [gasUsed, UInt64.toNat_sub_of_le _ _ kept, initial]
    refine ⟨?_, (run db msg evm st₂).1.gas, by simp [gasLeft, readied], ?_, ?_, ?_⟩
    · simp only [gasUsed] at used_eq ⊢
      rw [used_eq]
      omega
    · rw [UInt64.le_iff_toNat_le]
      exact ran_gas
    · simp only [gasUsed] at used_eq ⊢
      rw [used_eq]
      omega
    · simp only [gasUsed] at used_eq ⊢
      rw [used_eq]
      omega

end StateTransition

open Harmony.Core.StateTransition

section ApplyMessage

variable {S : Type} (db : StateDB S) (evm : EVM S) (msg : Message) (state : S) (gp : GasPool)

/-- A state of one funded account that every address reads, with no refund counter. -/
def fundedDB : StateDB Unit where
  GetBalance _ _ := 1000000
  SubBalance s _ _ := s
  AddBalance s _ _ := s
  GetNonce _ _ := 0
  SetNonce s _ _ := s
  GetRefund _ := 0

/-- An EVM whose calls and creations return at once with all their gas. -/
def idleEVM : EVM Unit where
  IsHomestead := true
  Coinbase := FixedBytes.zero 20
  Create s _ _ gas _ := (s, [], gas, none)
  Call s _ _ _ gas _ := (s, [], gas, none)

/-- A transfer of nothing with no data, buying `gas` at price one. -/
def transfer (gas : UInt64) : Message where
  From := FixedBytes.zero 20
  To := some (FixedBytes.zero 20)
  GasPrice := 1
  Gas := gas
  Value := 0
  Nonce := 0
  CheckNonce := true
  Data := []

/--
For every state, pool and message that passes the nonce and balance checks and buys a non-zero
amount of gas below its intrinsic gas, `ApplyMessage` returns `ErrOutOfGas` with the pool short of
all the gas the message bought.
-/
theorem ApplyMessage_out_of_gas_drains_pool {intrinsic : UInt64}
    (nonce : msg.CheckNonce = false ∨ db.GetNonce state msg.From = msg.Nonce)
    (funded : (msg.Gas.toNat : Int) * msg.GasPrice ≤ db.GetBalance state msg.From)
    (available : msg.Gas ≤ gp) (bought : msg.Gas ≠ 0)
    (priced : IntrinsicGas msg.Data msg.To.isNone evm.IsHomestead = .ok intrinsic)
    (short : msg.Gas < intrinsic) :
    ∃ state' gp', ApplyMessage db evm msg state gp = .ok ((state', gp'), .error "out of gas") ∧
      gp' ≠ gp ∧ gp'.toNat = gp.toNat - msg.Gas.toNat := by
  have pre : preCheck db msg (New gp state) =
      .ok { gp := gp - msg.Gas, gas := 0 + msg.Gas, initialGas := msg.Gas,
            state := db.SubBalance state msg.From ((msg.Gas.toNat : Int) * msg.GasPrice) } :=
    (preCheck_eq_ok db msg).mpr ⟨nonce, (buyGas_eq_ok db msg).mpr ⟨funded, available, rfl⟩⟩
  have drained : (gp - msg.Gas).toNat = gp.toNat - msg.Gas.toNat :=
    UInt64.toNat_sub_of_le _ _ available
  refine ⟨db.SubBalance state msg.From ((msg.Gas.toNat : Int) * msg.GasPrice), gp - msg.Gas, ?_, ?_,
    drained⟩
  · -- The intrinsic charge is refused after the pool has paid for the message's gas.
    unfold ApplyMessage TransitionDb
    rw [pre]
    dsimp only
    rw [priced]
    dsimp only
    rw [useGas_of_lt (by rw [UInt64.zero_add]; exact short)]
    rfl
  · intro same
    have positive : 0 < msg.Gas.toNat := by
      have := UInt64.toNat_inj.not.mpr bought
      simp only [UInt64.toNat_zero] at this
      omega
    have bounded := UInt64.le_iff_toNat_le.mp available
    rw [same] at drained
    omega

/-- A transfer buying 20000 gas, short of the 21000 it costs, from a pool of 100000. -/
theorem ApplyMessage_out_of_gas_drains_pool_transfer :
    ((transfer 20000).CheckNonce = false ∨ fundedDB.GetNonce () (transfer 20000).From = (transfer 20000).Nonce) ∧
      ((transfer 20000).Gas.toNat : Int) * (transfer 20000).GasPrice ≤
        fundedDB.GetBalance () (transfer 20000).From ∧
      (transfer 20000).Gas ≤ 100000 ∧ (transfer 20000).Gas ≠ 0 ∧
      IntrinsicGas (transfer 20000).Data (transfer 20000).To.isNone idleEVM.IsHomestead = .ok 21000 ∧
      (transfer 20000).Gas < 21000 ∧
      ∃ state' gp', ApplyMessage fundedDB idleEVM (transfer 20000) () 100000 =
          .ok ((state', gp'), .error "out of gas") ∧
        gp' ≠ 100000 ∧ gp'.toNat = (100000 : GasPool).toNat - (transfer 20000).Gas.toNat := by
  have priced : IntrinsicGas (transfer 20000).Data (transfer 20000).To.isNone idleEVM.IsHomestead =
      .ok 21000 := by decide
  exact ⟨.inr rfl, by decide, by decide, by decide, priced, by decide,
    ApplyMessage_out_of_gas_drains_pool fundedDB idleEVM (transfer 20000) () 100000 (.inr rfl)
      (by decide) (by decide) (by decide) priced (by decide)⟩

/--
Every error `ApplyMessage` returns leaves the pool as it was, when the nonce, the sender's balance
or the pool refused the message, or short of all the gas the message bought, when the message ran
out of gas or could not transfer its value.
-/
theorem ApplyMessage_error_pool {state' : S} {gp' : GasPool} {err : String}
    (failed : ApplyMessage db evm msg state gp = .ok ((state', gp'), .error err)) :
    (gp' = gp ∧ (err = "nonce too high" ∨ err = "nonce too low" ∨
        err = "insufficient balance to pay for gas" ∨ err = "gas limit reached")) ∨
      (msg.Gas ≤ gp ∧ gp' = gp - msg.Gas ∧
        (err = "out of gas" ∨ err = "insufficient balance for transfer")) := by
  unfold ApplyMessage at failed
  cases applied : TransitionDb db msg evm (New gp state) with
  | error panic =>
    rw [applied] at failed
    cases failed
  | ok outcome =>
    obtain ⟨st, result⟩ := outcome
    rw [applied] at failed
    simp only [bind, Except.bind, pure, Except.pure, Except.ok.injEq, Prod.mk.injEq] at failed
    obtain ⟨⟨-, rfl⟩, rfl⟩ := failed
    exact TransitionDb_error db msg applied

/-- The same transfer's error: the pool is 20000 short. -/
theorem ApplyMessage_error_pool_transfer :
    ApplyMessage fundedDB idleEVM (transfer 20000) () 100000 = .ok (((), 80000), .error "out of gas") ∧
      (((80000 : GasPool) = 100000 ∧ ("out of gas" = "nonce too high" ∨ "out of gas" = "nonce too low" ∨
          "out of gas" = "insufficient balance to pay for gas" ∨ "out of gas" = "gas limit reached")) ∨
        ((transfer 20000).Gas ≤ 100000 ∧ (80000 : GasPool) = 100000 - (transfer 20000).Gas ∧
          ("out of gas" = "out of gas" ∨ "out of gas" = "insufficient balance for transfer"))) := by
  have failed : ApplyMessage fundedDB idleEVM (transfer 20000) () 100000 =
      .ok (((), 80000), .error "out of gas") := by decide
  exact ⟨failed, ApplyMessage_error_pool fundedDB idleEVM (transfer 20000) () 100000 failed⟩

/-- The idle EVM is metered. -/
theorem idleEVM_metered : Metered idleEVM :=
  ⟨fun _ _ _ _ _ => UInt64.le_refl _, fun _ _ _ _ _ _ => UInt64.le_refl _⟩

/--
On a metered EVM `ApplyMessage` never panics: returning the gas left and the refund to the pool
stays within 64 bits. When it succeeds the pool has lost exactly the gas it returns as used, so
the pool and the block's used gas together stay at the block's gas limit; and the gas used is at
most the gas the EVM burnt and at least half of it.
-/
theorem ApplyMessage_pool_pays_used_gas (metered : Metered evm) :
    ∃ outcome, ApplyMessage db evm msg state gp = .ok outcome ∧
      ∀ state' gp' ret used failed, outcome = ((state', gp'), .ok (ret, used, failed)) →
        gp'.toNat + used.toNat = gp.toNat ∧
        ∃ left, gasLeft db msg evm (New gp state) = some left ∧ left ≤ msg.Gas ∧
          used.toNat ≤ msg.Gas.toNat - left.toNat ∧ msg.Gas.toNat - left.toNat ≤ 2 * used.toNat := by
  obtain ⟨⟨st, result⟩, transitioned, pays⟩ := TransitionDb_pays db msg metered
    (show (New gp state).gas = 0 from rfl)
  unfold ApplyMessage
  rw [transitioned]
  refine ⟨_, rfl, ?_⟩
  rintro state' gp' ret used failed same
  simp only [Prod.mk.injEq] at same
  obtain ⟨⟨-, rfl⟩, rfl⟩ := same
  exact pays st ret used failed rfl

/--
A transfer buying 30000 gas from a pool of 100000 uses the 21000 it costs, of which the idle EVM
burns none, and leaves 79000 in the pool.
-/
theorem ApplyMessage_pool_pays_used_gas_transfer :
    Metered idleEVM ∧
      ApplyMessage fundedDB idleEVM (transfer 30000) () 100000 = .ok (((), 79000), .ok ([], 21000, false)) ∧
      gasLeft fundedDB (transfer 30000) idleEVM (New 100000 ()) = some 9000 ∧
      ∃ outcome, ApplyMessage fundedDB idleEVM (transfer 30000) () 100000 = .ok outcome ∧
        ∀ state' gp' ret used failed, outcome = ((state', gp'), .ok (ret, used, failed)) →
          gp'.toNat + used.toNat = (100000 : GasPool).toNat ∧
          ∃ left, gasLeft fundedDB (transfer 30000) idleEVM (New 100000 ()) = some left ∧
            left ≤ (transfer 30000).Gas ∧
            used.toNat ≤ (transfer 30000).Gas.toNat - left.toNat ∧
            (transfer 30000).Gas.toNat - left.toNat ≤ 2 * used.toNat :=
  ⟨idleEVM_metered, by decide, by decide,
    ApplyMessage_pool_pays_used_gas fundedDB idleEVM (transfer 30000) () 100000 idleEVM_metered⟩

end ApplyMessage

end Core

end Harmony
