import Harmony.Consensus.State

/-!
Applying a message to the state, `core/state_transition.go`, with the block's gas pool of
`core/gaspool.go`.

Go passes the pool and the state database by pointer, so whatever a transition did to them before
it returned an error stays done. The functions here therefore return the transition's fields with
the error. The state database is a state type with the `vm.StateDB` operations a transition calls,
and the EVM's `Call` and `Create` are parameters. The gas constants are go-ethereum's `params` at
the version the repository builds against.
-/

namespace Harmony

open Go

namespace Core

/-- The gas a transaction pays before any data, go-ethereum's `params.TxGas`. -/
def TxGas : UInt64 := 21000

/-- The gas a contract creation pays before any data, go-ethereum's `params.TxGasContractCreation`. -/
def TxGasContractCreation : UInt64 := 53000

/-- The gas per zero byte of data, go-ethereum's `params.TxDataZeroGas`. -/
def TxDataZeroGas : UInt64 := 4

/-- The gas per non-zero byte of data, go-ethereum's `params.TxDataNonZeroGas`. -/
def TxDataNonZeroGas : UInt64 := 68

/-- The gas left for a block's transactions, Go's `GasPool`. -/
abbrev GasPool := UInt64

/-- Return gas to the pool, Go's `GasPool.AddGas`; it panics past `math.MaxUint64`. -/
def GasPool.AddGas (gp : GasPool) (amount : UInt64) : Outcome GasPool :=
  if gp > 0xffffffffffffffff - amount then throw "gas pool pushed above uint64"
  else pure (gp + amount)

/-- Take gas from the pool, Go's `GasPool.SubGas`; the pool is unchanged when it is short. -/
def GasPool.SubGas (gp : GasPool) (amount : UInt64) : Except String GasPool :=
  if gp < amount then .error "gas limit reached" else .ok (gp - amount)

/-- A message to apply, the fields of Go's `core.Message` a transition reads. -/
structure Message where
  /-- The sender. -/
  From : Address
  /-- The recipient; `none` creates a contract. -/
  To : Option Address
  /-- The price of a unit of gas, a `*big.Int`. -/
  GasPrice : Int
  /-- The gas the sender buys. -/
  Gas : UInt64
  /-- The value transferred, a `*big.Int`. -/
  Value : Int
  /-- The sender's nonce the message carries. -/
  Nonce : UInt64
  /-- Whether the nonce is checked against the state. -/
  CheckNonce : Bool
  /-- The call data or contract code. -/
  Data : Bytes

/-- The operations of Go's `vm.StateDB` a transition calls, on a state of type `S`. -/
structure StateDB (S : Type) where
  GetBalance : S → Address → Int
  SubBalance : S → Address → Int → S
  AddBalance : S → Address → Int → S
  GetNonce : S → Address → UInt64
  SetNonce : S → Address → UInt64 → S
  GetRefund : S → UInt64

/-- An error the EVM's `Call` or `Create` returns; only the balance failure matters to consensus. -/
inductive VmError where
  /-- Go's `vm.ErrInsufficientBalance`. -/
  | ErrInsufficientBalance
  /-- Any other error, which the transition records as a failed execution. -/
  | other (text : String)
  deriving DecidableEq

/-- The EVM of a transition: its rules, its coinbase and its two entry points. -/
structure EVM (S : Type) where
  /-- `ChainConfig().IsHomestead(BlockNumber)`. -/
  IsHomestead : Bool
  /-- The block's beneficiary. -/
  Coinbase : Address
  /-- Go's `EVM.Create`: the state, returned data, the gas left and the error. -/
  Create : S → Address → Bytes → UInt64 → Int → S × Bytes × UInt64 × Option VmError
  /-- Go's `EVM.Call`: the state, returned data, the gas left and the error. -/
  Call : S → Address → Address → Bytes → UInt64 → Int → S × Bytes × UInt64 × Option VmError

/-- The text of Go's `vm.ErrInsufficientBalance`. -/
def VmError.text : VmError → String
  | .ErrInsufficientBalance => "insufficient balance for transfer"
  | .other text => text

/-- The gas a message pays for its data before it runs, Go's `IntrinsicGas`. -/
def IntrinsicGas (data : Bytes) (contractCreation homestead : Bool) : Except String UInt64 :=
  let gas : UInt64 := if contractCreation && homestead then TxGasContractCreation else TxGas
  if data.length > 0 then
    -- Zero and non-zero bytes are priced differently.
    let nz : UInt64 := UInt64.ofNat (data.countP (· != 0))
    if (0xffffffffffffffff - gas) / TxDataNonZeroGas < nz then .error "out of gas"
    else
      let gas := gas + nz * TxDataNonZeroGas
      let z := UInt64.ofNat data.length - nz
      if (0xffffffffffffffff - gas) / TxDataZeroGas < z then .error "out of gas"
      else .ok (gas + z * TxDataZeroGas)
  else .ok gas

/-- The mutable fields of Go's `StateTransition`; the message and the EVM are fixed. -/
structure StateTransition (S : Type) where
  /-- The block's gas pool. -/
  gp : GasPool
  /-- The gas left to the message. -/
  gas : UInt64
  /-- The gas the message bought. -/
  initialGas : UInt64
  /-- The state database. -/
  state : S

namespace StateTransition

variable {S : Type} (db : StateDB S) (msg : Message)

/-- A transition's start, Go's `NewStateTransition`. -/
def New (gp : GasPool) (state : S) : StateTransition S :=
  { gp, gas := 0, initialGas := 0, state }

/-- The gas spent so far, Go's `gasUsed`. -/
def gasUsed (st : StateTransition S) : UInt64 := st.initialGas - st.gas

/-- Spend gas, Go's `useGas`. -/
def useGas (st : StateTransition S) (amount : UInt64) : Except String (StateTransition S) :=
  if st.gas < amount then .error "out of gas" else .ok { st with gas := st.gas - amount }

/-- Buy the message's gas from the pool and the sender's balance, Go's `buyGas`. -/
def buyGas (st : StateTransition S) : Except String (StateTransition S) :=
  let mgval := (msg.Gas.toNat : Int) * msg.GasPrice
  if db.GetBalance st.state msg.From < mgval then .error "insufficient balance to pay for gas"
  else
    match st.gp.SubGas msg.Gas with
    | .error err => .error err
    | .ok gp =>
      .ok { gp, gas := st.gas + msg.Gas, initialGas := msg.Gas,
            state := db.SubBalance st.state msg.From mgval }

/-- Check the nonce and buy gas, Go's `preCheck`. -/
def preCheck (st : StateTransition S) : Except String (StateTransition S) :=
  if msg.CheckNonce && db.GetNonce st.state msg.From < msg.Nonce then .error "nonce too high"
  else if msg.CheckNonce && db.GetNonce st.state msg.From > msg.Nonce then .error "nonce too low"
  else buyGas db msg st

/-- Refund unused gas to the sender and to the pool, Go's `refundGas`. -/
def refundGas (st : StateTransition S) : Outcome (StateTransition S) :=
  -- The refund counter is capped at half the gas used.
  let refund := min (gasUsed st / 2) (db.GetRefund st.state)
  let gas := st.gas + refund
  let remaining := (gas.toNat : Int) * msg.GasPrice
  let state := db.AddBalance st.state msg.From remaining
  do
    let gp ← st.gp.AddGas gas
    pure { st with gp, gas, state }

/--
Run the message's code as `TransitionDb` does: create a contract, or increment the sender's nonce
and call the recipient. The EVM returns the gas it left, which becomes the transition's.
-/
def run (evm : EVM S) (st : StateTransition S) : StateTransition S × Bytes × Option VmError :=
  match msg.To with
  | none =>
    let (state, ret, gas, vmerr) := evm.Create st.state msg.From msg.Data st.gas msg.Value
    ({ st with state, gas }, ret, vmerr)
  | some recipient =>
    let state := db.SetNonce st.state msg.From (db.GetNonce st.state msg.From + 1)
    let (state, ret, gas, vmerr) := evm.Call state msg.From recipient msg.Data st.gas msg.Value
    ({ st with state, gas }, ret, vmerr)

/--
Apply the message, Go's `TransitionDb`: the returned data, the gas used and whether the execution
failed, or the error; with the fields as the transition left them either way.
-/
def TransitionDb (evm : EVM S) (st : StateTransition S) :
    Outcome (StateTransition S × Except String (Bytes × UInt64 × Bool)) :=
  match preCheck db msg st with
  | .error err => pure (st, .error err)
  | .ok st =>
    let contractCreation := msg.To.isNone
    match IntrinsicGas msg.Data contractCreation evm.IsHomestead with
    | .error err => pure (st, .error err)
    | .ok gas =>
      match useGas st gas with
      | .error err => pure (st, .error err)
      | .ok st =>
        let (st, ret, vmerr) := run db msg evm st
        -- Only a failed value transfer is a consensus error; other VM errors mark a failed run.
        if vmerr = some .ErrInsufficientBalance then
          pure (st, .error VmError.ErrInsufficientBalance.text)
        else do
          let st ← refundGas db msg st
          let st := { st with
            state := db.AddBalance st.state evm.Coinbase ((gasUsed st).toNat * msg.GasPrice) }
          pure (st, .ok (ret, gasUsed st, vmerr.isSome))

end StateTransition

/--
Apply a message to a state with the block's gas pool, Go's `ApplyMessage`: the state and pool it
leaves, with the result or the error.
-/
def ApplyMessage {S : Type} (db : StateDB S) (evm : EVM S) (msg : Message) (state : S)
    (gp : GasPool) : Outcome ((S × GasPool) × Except String (Bytes × UInt64 × Bool)) := do
  let (st, result) ← StateTransition.TransitionDb db msg evm (StateTransition.New gp state)
  pure ((st.state, st.gp), result)

end Core

end Harmony
