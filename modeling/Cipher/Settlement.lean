import Cipher.PaymentChannel
import Cipher.ProviderRegistry
import Cipher.Raffle

/-!
# Settlement of rounds and disputes

`SettlementEngine.sol` and `ChunkDisputeResolver.sol`, together with the
contracts they call: a `World` holds the state of all four, and `exec`
runs a transaction to any of them. A payout goes through
`PaymentChannel.payoutProvider`, where the payee gets control; until then
and afterwards the engine and the resolver are straight lines of checks
and writes.

`Engine.writes` lists every write to a round, newest first, with the
round before and after it, and `Engine.payouts` every payout the engine
has made, with the disputes that were on record when it was made.
-/

namespace Cipher.Settlement

open Bytes Evm Raffle Function

/-! ## Types -/

inductive RoundStatus where
  | uncommitted | opened | settled | partialFallback | voided
deriving DecidableEq, Repr

structure Round where
  tau : Nat
  faceValue : Nat
  recipientRandHash : Bytes32
  commitBlock : Nat
  status : RoundStatus
deriving DecidableEq, Repr

inductive DisputeStatus where
  | none | opened | resolvedHonest | resolvedSlashed
deriving DecidableEq, Repr

structure Dispute where
  status : DisputeStatus
  evidenceHash : Bytes32
  raisedBlock : Nat
  deadlineBlock : Nat
deriving DecidableEq, Repr

/-- A round of a channel. -/
structure RoundId where
  sender : Address
  recipient : Address
  roundId : Nat
deriving DecidableEq, Repr

/-- A ticket position of a round, which is what disputes are about. -/
structure Slot where
  round : RoundId
  localIndex : Nat
deriving DecidableEq, Repr

inductive EngineError where
  | roundAlreadyCommitted | roundNotCommitted | invalidRoundParams | roundNotOpen
  | roundIsVoided | notWinningIndex | ticketAlreadyUsed | roundNotPartial
  | roundNotStaleEnough | roundDisputePending | unauthorizedCaller | arrayLengthMismatch
  | reentrantCall | enforcedPause | expectedPause
deriving DecidableEq, Repr

inductive ResolverError where
  | disputeAlreadyOpen | disputeNotOpen | disputeWindowElapsed | disputeWindowNotElapsed
  | invalidMerkleProof | unauthorizedCaller
deriving DecidableEq, Repr

/-- A revert comes from one of the contracts, from the compiler's checks,
or from a dispute resolver that is not the one modelled here. -/
inductive Error where
  | engine (e : EngineError)
  | resolver (e : ResolverError)
  | channel (e : PaymentChannel.Error)
  | registry (e : ProviderRegistry.Error)
  | entropy (e : Raffle.Error)
  | foreignResolver
  | panic
  | badCalldata
deriving DecidableEq, Repr

inductive EngineEvent where
  | roundCommitted (id : RoundId) (tau faceValue commitBlock : Nat)
  | roundSettled (id : RoundId) (winningLocalIndex faceValue : Nat)
  | roundMarkedPartial (id : RoundId)
  | fallbackTicketClaimed (id : RoundId) (localIndex faceValue : Nat)
  | roundVoided (id : RoundId) (reason : Bytes32)
  | paused (account : Address)
  | unpaused (account : Address)
deriving DecidableEq, Repr

inductive ResolverEvent where
  | disputeRaised (slot : Slot) (deadlineBlock : Nat)
  | disputeResolvedHonest (slot : Slot)
  | disputeResolvedSlashed (slot : Slot) (slashedStake : Nat)
deriving DecidableEq, Repr

structure RoundWrite where
  key : Bytes32
  old : Round
  new : Round
deriving DecidableEq, Repr

/-- A round pays the ticket that was drawn, or, in fallback mode, each
ticket that wins by its own odds. -/
inductive Mode where
  | normal | fallback
deriving DecidableEq, Repr

/-- A payout, with the disputes as they were on record. -/
structure Payout where
  mode : Mode
  ticket : RoundTicket
  disputes : Bytes32 → Dispute

structure Engine where
  rounds : Bytes32 → Round
  usedTickets : Bytes32 → Bool
  usedFallbackTickets : Bytes32 → Bool
  disputeResolver : Address
  owner : Address
  paused : Bool
  locked : Bool
  log : List EngineEvent
  writes : List RoundWrite
  payouts : List Payout

structure Resolver where
  disputes : Bytes32 → Dispute
  pendingDisputeCount : Bytes32 → Nat
  log : List ResolverEvent

structure World where
  channel : PaymentChannel.World
  registry : ProviderRegistry.World
  engine : Engine
  resolver : Resolver

/-- The addresses of the contracts, and the entropy contract with the
chain's functions. -/
structure Deployment where
  channel : Address
  registry : Address
  engine : Address
  resolver : Address
  entropy : Entropy

inductive Call where
  | channel (c : PaymentChannel.Call)
  | registry (c : ProviderRegistry.Call)
  | setDisputeResolver (disputeResolver : Address)
  | pause
  | unpause
  | commitRoundSecret (sender : Address) (roundId tau faceValue : Nat)
      (recipientRandHash : Bytes32)
  | settleRound (ticket : RoundTicket) (senderSig : List UInt8) (secret : Bytes32)
  | settleRoundBatch (tickets : List RoundTicket) (senderSigs : List (List UInt8))
      (secrets : List Bytes32)
  | markRoundPartial (sender : Address) (roundId : Nat)
  | claimFallbackTicket (ticket : RoundTicket) (senderSig : List UInt8) (secret : Bytes32)
  | voidRound (sender recipient : Address) (roundId : Nat) (reason : Bytes32)
  | raiseChunkDispute (recipient : Address) (roundId localIndex : Nat) (evidenceHash : Bytes32)
  | respondToDispute (sender : Address) (roundId localIndex : Nat) (chunk : List UInt8)
      (merkleProof : List Bytes32) (merkleRoot : Bytes32)
  | resolveExpiredDispute (sender recipient : Address) (roundId localIndex : Nat)
deriving DecidableEq, Repr

/-- What the dispute resolvers that are not modelled answer to
`isDisputePending`, if they answer. -/
abbrev Answers := Address → RoundId → Option Bool

/-- A resolver at another address has a state of its own, so its answers
may differ from one transaction to the next. -/
structure Tx where
  msg : Msg
  call : Call
  answers : Answers := fun _ _ => none

/-! ## Storage access -/

def blankRound : Round := ⟨0, 0, 0, 0, .uncommitted⟩

def blankDispute : Dispute := ⟨.none, 0, 0, 0⟩

/-- The contracts right after their deployment by `owner`. -/
def World.init (owner : Address) : World where
  channel := .init owner
  registry := .init owner
  engine :=
    { rounds := fun _ => blankRound, usedTickets := fun _ => false,
      usedFallbackTickets := fun _ => false, disputeResolver := 0, owner, paused := false,
      locked := false, log := [], writes := [], payouts := [] }
  resolver := { disputes := fun _ => blankDispute, pendingDisputeCount := fun _ => 0, log := [] }

def Engine.setRound (e : Engine) (key : Bytes32) (round : Round) : Engine :=
  { e with
    rounds := update e.rounds key round
    writes := ⟨key, e.rounds key, round⟩ :: e.writes }

def Engine.emit (e : Engine) (event : EngineEvent) : Engine := { e with log := event :: e.log }

def Resolver.setDispute (r : Resolver) (key : Bytes32) (dispute : Dispute) : Resolver :=
  { r with disputes := update r.disputes key dispute }

def Resolver.setPending (r : Resolver) (key : Bytes32) (n : Nat) : Resolver :=
  { r with pendingDisputeCount := update r.pendingDisputeCount key n }

def Resolver.emit (r : Resolver) (event : ResolverEvent) : Resolver :=
  { r with log := event :: r.log }

def Deployment.channels (d : Deployment) : PaymentChannel.Deployment :=
  ⟨d.channel, d.entropy.keccak256⟩

def getChannelKey (d : Deployment) (sender recipient : Address) : Bytes32 :=
  PaymentChannel.getChannelKey d.channels sender recipient

/-- `_roundKey` of the round's channel. -/
def roundKey (d : Deployment) (id : RoundId) : Bytes32 :=
  d.entropy.keccak256 (word (getChannelKey d id.sender id.recipient).toNat ++ word id.roundId)

/-- `_disputeKey`. -/
def disputeKey (d : Deployment) (slot : Slot) : Bytes32 :=
  d.entropy.keccak256 (beBytes 20 slot.round.sender.toNat ++ beBytes 20 slot.round.recipient.toNat
    ++ word slot.round.roundId ++ word slot.localIndex)

/-- `_roundDisputeKey`. -/
def roundDisputeKey (d : Deployment) (id : RoundId) : Bytes32 :=
  d.entropy.keccak256 (beBytes 20 id.sender.toNat ++ beBytes 20 id.recipient.toNat
    ++ word id.roundId)

def maxRoundSize : Nat := 10000

def roundStaleTimeout : Nat := 3600

def disputeResponseWindow : Nat := 1200

def slashBps : Nat := 2000

/-- The round a ticket is for. -/
def ticketRound (ticket : RoundTicket) : RoundId :=
  ⟨ticket.sender, ticket.recipient, ticket.roundId⟩

/-! ## The settlement engine -/

def onlyOwner (m : Msg) (w : World) (body : Prog World Error) : Prog World Error :=
  if m.sender ≠ w.engine.owner then .revert (.engine .unauthorizedCaller) else body

def onlyDisputeResolver (sender : Address) (w : World) (body : Prog World Error) :
    Prog World Error :=
  if w.engine.disputeResolver ≠ 0 ∧ sender ≠ w.engine.disputeResolver then
    .revert (.engine .unauthorizedCaller)
  else body

def whenNotPaused (w : World) (body : Prog World Error) : Prog World Error :=
  if w.engine.paused then .revert (.engine .enforcedPause) else body

def nonReentrant (w : World) (body : World → Prog World Error) : Prog World Error :=
  if w.engine.locked then .revert (.engine .reentrantCall)
  else (body { w with engine := { w.engine with locked := true } }).bind fun w =>
    .done { w with engine := { w.engine with locked := false } }

def setDisputeResolver (m : Msg) (disputeResolver : Address) (w : World) : Prog World Error :=
  onlyOwner m w <| .done { w with engine := { w.engine with disputeResolver } }

def pause (m : Msg) (w : World) : Prog World Error :=
  onlyOwner m w <| whenNotPaused w <|
    .done { w with engine := { w.engine with paused := true }.emit (.paused m.sender) }

def unpause (m : Msg) (w : World) : Prog World Error :=
  onlyOwner m w <|
    if !w.engine.paused then .revert (.engine .expectedPause)
    else .done { w with engine := { w.engine with paused := false }.emit (.unpaused m.sender) }

def commitRoundSecret (d : Deployment) (m : Msg) (sender : Address)
    (roundId tau faceValue : Nat) (recipientRandHash : Bytes32) (w : World) : Prog World Error :=
  whenNotPaused w <|
    let id : RoundId := ⟨sender, m.sender, roundId⟩
    if tau = 0 ∨ tau > maxRoundSize ∨ faceValue = 0 then .revert (.engine .invalidRoundParams)
    else if (w.engine.rounds (roundKey d id)).status ≠ .uncommitted then
      .revert (.engine .roundAlreadyCommitted)
    else
      .done { w with
        engine := (w.engine.setRound (roundKey d id)
          { tau, faceValue, recipientRandHash, commitBlock := m.number, status := .opened }).emit
          (.roundCommitted id tau faceValue m.number) }

/-- `ChunkDisputeResolver.isDisputePending`. -/
def isDisputePending (d : Deployment) (id : RoundId) (r : Resolver) : Bool :=
  r.pendingDisputeCount (roundDisputeKey d id) > 0

/-- What the engine learns from the dispute resolver it has been given. -/
def disputePending (d : Deployment) (answers : Answers) (id : RoundId) (w : World) : Option Bool :=
  if w.engine.disputeResolver = 0 then some false
  else if w.engine.disputeResolver = d.resolver then some (isDisputePending d id w.resolver)
  else answers w.engine.disputeResolver id

def Engine.record (e : Engine) (payout : Payout) : Engine :=
  { e with payouts := payout :: e.payouts }

/-- The engine's call of `PaymentChannel.payoutProvider`. -/
def payoutProvider (d : Deployment) (m : Msg) (mode : Mode) (ticket : RoundTicket) (w : World) :
    Prog World Error :=
  (PaymentChannel.payoutProvider d.channels { m with sender := d.engine, value := 0 }
    ticket.sender ticket.recipient ticket.faceValue w.channel).embed World.channel
    (fun w channel => { w with channel }) .channel
    { w with engine := w.engine.record ⟨mode, ticket, w.resolver.disputes⟩ }

/-- `_settleRoundInternal`. -/
def settleRoundInternal (d : Deployment) (m : Msg) (answers : Answers) (ticket : RoundTicket)
    (senderSig : List UInt8) (secret : Bytes32) (w : World) : Prog World Error :=
  let key := roundKey d (ticketRound ticket)
  let round := w.engine.rounds key
  if round.status = .uncommitted then .revert (.engine .roundNotCommitted)
  else if round.status = .voided then .revert (.engine .roundIsVoided)
  else if round.status ≠ .opened then .revert (.engine .roundNotOpen)
  else match disputePending d answers (ticketRound ticket) w with
  | none => .revert .foreignResolver
  | some true => .revert (.engine .roundDisputePending)
  | some false =>
    if ticket.faceValue ≠ round.faceValue ∨ ticket.localIndex ≥ round.tau then
      .revert (.engine .invalidRoundParams)
    else
      let tHash := roundTicketHash d.entropy ticket
      if w.engine.usedTickets tHash then .revert (.engine .ticketAlreadyUsed)
      else match recoverSigner d.entropy tHash senderSig with
      | .error e => .revert (.entropy e)
      | .ok signer =>
        if ticket.sender ≠ signer then .revert (.entropy .invalidSignature)
        else if !verifySecretCommitment d.entropy secret round.recipientRandHash then
          .revert (.entropy .invalidSecret)
        else match computeWinnerIndex d.entropy m round.commitBlock secret ticket.roundId
          round.tau with
        | .error e => .revert (.entropy e)
        | .ok winnerIndex =>
          if ticket.localIndex ≠ winnerIndex then .revert (.engine .notWinningIndex)
          else
            let engine := { w.engine.setRound key { round with status := .settled } with
              usedTickets := update w.engine.usedTickets tHash true }
            (payoutProvider d m .normal ticket { w with engine }).bind fun w =>
              .done { w with
                engine := w.engine.emit
                  (.roundSettled (ticketRound ticket) ticket.localIndex ticket.faceValue) }

def settleRound (d : Deployment) (m : Msg) (answers : Answers) (ticket : RoundTicket)
    (senderSig : List UInt8) (secret : Bytes32) (w : World) : Prog World Error :=
  nonReentrant w fun w => whenNotPaused w <|
    settleRoundInternal d m answers ticket senderSig secret w

/-- The loop of `settleRoundBatch`. -/
def settleRounds (d : Deployment) (m : Msg) (answers : Answers) :
    List (RoundTicket × List UInt8 × Bytes32) → World → Prog World Error
  | [], w => .done w
  | (ticket, senderSig, secret) :: rest, w =>
    (settleRoundInternal d m answers ticket senderSig secret w).bind
      (settleRounds d m answers rest)

def settleRoundBatch (d : Deployment) (m : Msg) (answers : Answers)
    (tickets : List RoundTicket) (senderSigs : List (List UInt8)) (secrets : List Bytes32)
    (w : World) : Prog World Error :=
  nonReentrant w fun w => whenNotPaused w <|
    if tickets.length ≠ senderSigs.length ∨ tickets.length ≠ secrets.length then
      .revert (.engine .arrayLengthMismatch)
    else settleRounds d m answers (tickets.zip (senderSigs.zip secrets)) w

def markRoundPartial (d : Deployment) (m : Msg) (sender : Address) (roundId : Nat) (w : World) :
    Prog World Error :=
  whenNotPaused w <|
    let id : RoundId := ⟨sender, m.sender, roundId⟩
    let round := w.engine.rounds (roundKey d id)
    if round.status ≠ .opened then .revert (.engine .roundNotOpen)
    else match add256 round.commitBlock roundStaleTimeout with
      | none => .revert .panic
      | some staleAfter =>
        let isUnlock :=
          PaymentChannel.isUnlockInitiated d.channels sender m.sender w.channel.toStorage
        if !isUnlock ∧ ¬m.number > staleAfter then .revert (.engine .roundNotStaleEnough)
        else
          .done { w with
            engine := (w.engine.setRound (roundKey d id)
              { round with status := .partialFallback }).emit (.roundMarkedPartial id) }

def claimFallbackTicket (d : Deployment) (m : Msg) (ticket : RoundTicket)
    (senderSig : List UInt8) (secret : Bytes32) (w : World) : Prog World Error :=
  nonReentrant w fun w => whenNotPaused w <|
    let round := w.engine.rounds (roundKey d (ticketRound ticket))
    if round.status ≠ .partialFallback then .revert (.engine .roundNotPartial)
    else
      let tHash := roundTicketHash d.entropy ticket
      if w.engine.usedFallbackTickets tHash then .revert (.engine .ticketAlreadyUsed)
      else match recoverSigner d.entropy tHash senderSig with
      | .error e => .revert (.entropy e)
      | .ok signer =>
        if ticket.sender ≠ signer then .revert (.entropy .invalidSignature)
        else if !verifySecretCommitment d.entropy secret round.recipientRandHash then
          .revert (.entropy .invalidSecret)
        else match add256 round.commitBlock confirmationDelay with
        | none => .revert .panic
        | some targetBlockNumber =>
          let bh := blockhash d.entropy m targetBlockNumber
          if bh = 0 then .revert (.entropy .blockhashUnavailable)
          else if !RaffleMath.isFallbackWinner d.entropy bh ticket.senderNonce secret
              ticket.winProb then
            .revert (.engine .notWinningIndex)
          else
            let engine := { w.engine with
              usedFallbackTickets := update w.engine.usedFallbackTickets tHash true }
            (payoutProvider d m .fallback ticket { w with engine }).bind fun w =>
              .done { w with
                engine := w.engine.emit
                  (.fallbackTicketClaimed (ticketRound ticket) ticket.localIndex
                    ticket.faceValue) }

/-- Called from outside and by the resolver, hence the sender. -/
def voidRound (d : Deployment) (caller : Address) (id : RoundId) (reason : Bytes32) (w : World) :
    Prog World Error :=
  onlyDisputeResolver caller w <|
    let key := roundKey d id
    .done { w with
      engine := (w.engine.setRound key { w.engine.rounds key with status := .voided }).emit
        (.roundVoided id reason) }

def getRoundStatus (d : Deployment) (id : RoundId) (w : World) : RoundStatus :=
  (w.engine.rounds (roundKey d id)).status

def previewWinnerIndex (d : Deployment) (m : Msg) (id : RoundId) (secret : Bytes32) (w : World) :
    Except Error Nat :=
  let round := w.engine.rounds (roundKey d id)
  if round.status = .uncommitted then .error (.engine .roundNotCommitted)
  else if !verifySecretCommitment d.entropy secret round.recipientRandHash then
    .error (.entropy .invalidSecret)
  else match computeWinnerIndex d.entropy m round.commitBlock secret id.roundId round.tau with
    | .error e => .error (.entropy e)
    | .ok winnerIndex => .ok winnerIndex

/-! ## The dispute resolver -/

def raiseChunkDispute (d : Deployment) (m : Msg) (recipient : Address)
    (roundId localIndex : Nat) (evidenceHash : Bytes32) (w : World) : Prog World Error :=
  let slot : Slot := ⟨⟨m.sender, recipient, roundId⟩, localIndex⟩
  let key := disputeKey d slot
  if (w.resolver.disputes key).status ≠ .none then .revert (.resolver .disputeAlreadyOpen)
  else if getRoundStatus d slot.round w ≠ .opened then .revert (.resolver .unauthorizedCaller)
  else match add256 m.number disputeResponseWindow with
    | none => .revert .panic
    | some deadline =>
      let rdKey := roundDisputeKey d slot.round
      match add256 (w.resolver.pendingDisputeCount rdKey) 1 with
      | none => .revert .panic
      | some pending =>
        .done { w with
          resolver := ((w.resolver.setDispute key
            { status := .opened, evidenceHash, raisedBlock := m.number,
              deadlineBlock := deadline }).setPending rdKey pending).emit
            (.disputeRaised slot deadline) }

/-- The guarded decrement of `pendingDisputeCount`. -/
def Resolver.release (r : Resolver) (rdKey : Bytes32) : Resolver :=
  if r.pendingDisputeCount rdKey > 0 then r.setPending rdKey (r.pendingDisputeCount rdKey - 1)
  else r

def respondToDispute (d : Deployment) (m : Msg) (sender : Address) (roundId localIndex : Nat)
    (chunk : List UInt8) (merkleProof : List Bytes32) (merkleRoot : Bytes32) (w : World) :
    Prog World Error :=
  let slot : Slot := ⟨⟨sender, m.sender, roundId⟩, localIndex⟩
  let key := disputeKey d slot
  let dispute := w.resolver.disputes key
  if dispute.status ≠ .opened then .revert (.resolver .disputeNotOpen)
  else if m.number > dispute.deadlineBlock then .revert (.resolver .disputeWindowElapsed)
  else if !RaffleMath.verifyMerkleProof d.entropy chunk localIndex merkleProof merkleRoot then
    .revert (.resolver .invalidMerkleProof)
  else
    .done { w with
      resolver := ((w.resolver.setDispute key { dispute with status := .resolvedHonest }).release
        (roundDisputeKey d slot.round)).emit (.disputeResolvedHonest slot) }

def expiredDisputeReason (d : Deployment) : Bytes32 :=
  d.entropy.keccak256 (ascii "EXPIRED_DISPUTE_SLASH")

def resolveExpiredDispute (d : Deployment) (m : Msg) (sender recipient : Address)
    (roundId localIndex : Nat) (w : World) : Prog World Error :=
  let slot : Slot := ⟨⟨sender, recipient, roundId⟩, localIndex⟩
  let key := disputeKey d slot
  let dispute := w.resolver.disputes key
  if dispute.status ≠ .opened then .revert (.resolver .disputeNotOpen)
  else if m.number ≤ dispute.deadlineBlock then .revert (.resolver .disputeWindowNotElapsed)
  else
    let w := { w with
      resolver := (w.resolver.setDispute key { dispute with status := .resolvedSlashed }).release
        (roundDisputeKey d slot.round) }
    let providerStake := ProviderRegistry.getProviderStake recipient w.registry
    match mul256 providerStake slashBps with
    | none => .revert .panic
    | some product =>
      match ProviderRegistry.slashProvider { m with sender := d.resolver, value := 0 } recipient
        (product / 10000) (expiredDisputeReason d) w.registry with
      | .error e => .revert (.registry e)
      | .ok (slashedAmount, registry) =>
        (voidRound d d.resolver slot.round (expiredDisputeReason d) { w with registry }).bind
          fun w => .done { w with
            resolver := w.resolver.emit (.disputeResolvedSlashed slot slashedAmount) }

def getDisputeStatus (d : Deployment) (slot : Slot) (r : Resolver) : DisputeStatus :=
  (r.disputes (disputeKey d slot)).status

/-! ## Transactions -/

def ticketInRange (t : RoundTicket) : Bool :=
  t.roundId < 2 ^ 256 && t.localIndex < 2 ^ 256 && t.faceValue < 2 ^ 256 && t.winProb < 2 ^ 256
    && t.senderNonce < 2 ^ 256

def Call.inRange : Call → Bool
  | .commitRoundSecret _ roundId tau faceValue _ =>
    roundId < 2 ^ 256 && tau < 2 ^ 256 && faceValue < 2 ^ 256
  | .settleRound ticket _ _ | .claimFallbackTicket ticket _ _ => ticketInRange ticket
  | .settleRoundBatch tickets _ _ => tickets.all ticketInRange
  | .markRoundPartial _ roundId | .voidRound _ _ roundId _ => roundId < 2 ^ 256
  | .raiseChunkDispute _ roundId localIndex _ | .respondToDispute _ roundId localIndex _ _ _
  | .resolveExpiredDispute _ _ roundId localIndex => roundId < 2 ^ 256 && localIndex < 2 ^ 256
  | _ => true

def dispatch (d : Deployment) (m : Msg) (answers : Answers) (w : World) :
    Call → Prog World Error
  | .channel c =>
    (PaymentChannel.exec d.channels ⟨m, c⟩ w.channel).embed World.channel
      (fun w channel => { w with channel }) .channel w
  | .registry c =>
    (ProviderRegistry.exec ⟨d.registry⟩ ⟨m, c⟩ w.registry).embed World.registry
      (fun w registry => { w with registry }) .registry w
  | .setDisputeResolver disputeResolver => setDisputeResolver m disputeResolver w
  | .pause => pause m w
  | .unpause => unpause m w
  | .commitRoundSecret sender roundId tau faceValue recipientRandHash =>
    commitRoundSecret d m sender roundId tau faceValue recipientRandHash w
  | .settleRound ticket senderSig secret => settleRound d m answers ticket senderSig secret w
  | .settleRoundBatch tickets senderSigs secrets =>
    settleRoundBatch d m answers tickets senderSigs secrets w
  | .markRoundPartial sender roundId => markRoundPartial d m sender roundId w
  | .claimFallbackTicket ticket senderSig secret =>
    claimFallbackTicket d m ticket senderSig secret w
  | .voidRound sender recipient roundId reason =>
    voidRound d m.sender ⟨sender, recipient, roundId⟩ reason w
  | .raiseChunkDispute recipient roundId localIndex evidenceHash =>
    raiseChunkDispute d m recipient roundId localIndex evidenceHash w
  | .respondToDispute sender roundId localIndex chunk merkleProof merkleRoot =>
    respondToDispute d m sender roundId localIndex chunk merkleProof merkleRoot w
  | .resolveExpiredDispute sender recipient roundId localIndex =>
    resolveExpiredDispute d m sender recipient roundId localIndex w

/-- The functions of the engine and the resolver take no value. -/
def Call.checksValue : Call → Bool
  | .channel _ | .registry _ => false
  | _ => true

def exec (d : Deployment) (tx : Tx) (w : World) : Prog World Error :=
  if !tx.call.inRange ∨ (tx.call.checksValue ∧ tx.msg.value ≠ 0) then .revert .badCalldata
  else dispatch d tx.msg tx.answers w tx.call

end Cipher.Settlement
