import Harmony.Node.Handler
import Harmony.Proofs.Consensus.Certificates

/-!
Which bytes a peer can send make a node panic: a short pubsub frame, a Node/Block or
Node/Transaction message without a payload, and a view-change or new-view message whose body is
not a view-change body.
-/

namespace Harmony

open Go

namespace NodeHandler

variable (DecodeBlocks : Bytes → Option (List Block))
variable (DecodeTransactions : Bytes → Option (List Transaction))

/-- A frame with a full p2p header hands everything after it to `messageHandler`. -/
theorem Receive_framed (role : Role) (header content : Bytes) (framed : header.length = 5) :
    Receive DecodeBlocks DecodeTransactions role (header ++ content) =
      messageHandler DecodeBlocks DecodeTransactions role content := by
  have sliced : sliceFrom? (header ++ content) 5 = some content := by
    rw [sliceFrom?_of_le (by simp [framed])]
    simp [← framed]
  simp [Receive, sliced]

/-- A consensus frame with a payload reaches consensus with everything after its category byte. -/
theorem receive_consensus (role : Role) (header payload : Bytes) (framed : header.length = 5)
    (nonempty : payload ≠ []) :
    Receive DecodeBlocks DecodeTransactions role (header ++ 0 :: payload) =
      .ok (.consensus payload) := by
  rw [Receive_framed DecodeBlocks DecodeTransactions role header _ framed]
  -- Without a type byte after the category the message would be dropped.
  cases payload with
  | nil => exact absurd rfl nonempty
  | cons msgType rest =>
    simp [messageHandler, GetMessageCategory, GetMessageType, GetMessagePayload, pure,
      Except.pure]

end NodeHandler

namespace Consensus

variable {K S : Type} [AddCommGroup K] [DecidableEq K] [AddCommMonoid S]
variable (P : Primitives K S)

/-- A view-change message without a view-change body dereferences `nil` reading its sender. -/
theorem onViewChange_without_body (c : Consensus K S) (msg : Message)
    (bodiless : msg.GetViewchange = none) :
    c.onViewChange P msg = .error "nil pointer dereference" := by
  simp [onViewChange, verifyViewChangeSenderKey, bodiless, bind, Except.bind]

omit [AddCommMonoid S] in
/-- A new-view message without a view-change body dereferences `nil` reading its sender. -/
theorem onNewView_without_body (c : Consensus K S) (msg : Message)
    (bodiless : msg.GetViewchange = none) :
    c.onNewView P msg = .error "nil pointer dereference" := by
  simp [onNewView, verifyViewChangeSenderKey, bodiless, bind, Except.bind]

/--
Every node, in every state, panics on a consensus frame whose payload decodes to a view-change
or new-view message without a view-change body: the frame reaches consensus, and the handler
reads the sender key through the absent body before any signature check.
-/
theorem viewchange_without_body_panics (DecodeBlocks : Bytes → Option (List Block))
    (DecodeTransactions : Bytes → Option (List Transaction)) (role : Role)
    (Unmarshal : Bytes → Option Message) (c : Consensus K S) (header payload : Bytes)
    (msg : Message) (ready : Nat → Bool) (framed : header.length = 5) (nonempty : payload ≠ [])
    (decoded : Unmarshal payload = some msg)
    (typed : msg.msgType = .VIEWCHANGE ∨ msg.msgType = .NEWVIEW)
    (bodiless : msg.GetViewchange = none) :
    NodeHandler.Receive DecodeBlocks DecodeTransactions role (header ++ 0 :: payload) =
        .ok (.consensus payload) ∧
      c.handlePayload P Unmarshal payload ready = .error "nil pointer dereference" := by
  refine ⟨NodeHandler.receive_consensus DecodeBlocks DecodeTransactions role header payload framed
    nonempty, ?_⟩
  have present : payload.length ≠ 0 := by simpa using nonempty
  -- Neither type is dropped in view-change mode, so the message reaches its handler.
  rcases typed with viewChange | newView
  · simp [handlePayload, present, decoded, handleMessageUpdate, viewChange,
      onViewChange_without_body P c msg bodiless]
  · simp [handlePayload, present, decoded, handleMessageUpdate, newView,
      onNewView_without_body P c msg bodiless]

/--
A started member of the committee panics on a view change whose body was left unset: the payload
`[0x10, 0x06]` is the protobuf encoding of a consensus message of type `VIEWCHANGE` with every other
field at its default.
-/
theorem viewchange_without_body_panics_member :
    let msg : Message :=
      { serviceType := .CONSENSUS, msgType := .VIEWCHANGE, Signature := [], request := .none }
    let Unmarshal : Bytes → Option Message := fun payload =>
      if payload = [0x10, 0x06] then some msg else none
    ([0, 0, 0, 0, 0] : Bytes).length = 5 ∧ ([0x10, 0x06] : Bytes) ≠ [] ∧
      Unmarshal [0x10, 0x06] = some msg ∧
      (msg.msgType = .VIEWCHANGE ∨ msg.msgType = .NEWVIEW) ∧ msg.GetViewchange = none ∧
      (NodeHandler.Receive (fun _ => none) (fun _ => none) .ShardValidator
          ([0, 0, 0, 0, 0] ++ 0 :: [0x10, 0x06]) = .ok (.consensus [0x10, 0x06]) ∧
        (Committee.member 10).consensus.handlePayload Committee.scheme Unmarshal [0x10, 0x06]
          Committee.noReader = .error "nil pointer dereference") := by
  intro msg Unmarshal
  have decoded : Unmarshal [0x10, 0x06] = some msg := if_pos rfl
  exact ⟨rfl, by decide, decoded, .inl rfl, rfl,
    viewchange_without_body_panics Committee.scheme (fun _ => none) (fun _ => none) .ShardValidator
      Unmarshal (Committee.member 10).consensus [0, 0, 0, 0, 0] [0x10, 0x06] msg
      Committee.noReader rfl (by decide) decoded (.inl rfl) rfl⟩

end Consensus

end Harmony
