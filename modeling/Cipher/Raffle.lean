import Cipher.Evm

/-!
# Tickets and draws

The library `RaffleMath` and the contract `CommitRevealEntropy`: hashes
of tickets, recovery of their signers, and the draw of a winner from a
block hash and a revealed secret. Nothing here has a state of its own;
hashing, signature recovery and the hashes of past blocks are the
parameters of an `Entropy`.
-/

namespace Cipher.Raffle

open Bytes Evm

structure RoundTicket where
  sender : Address
  recipient : Address
  roundId : Nat
  localIndex : Nat
  faceValue : Nat
  winProb : Nat
  senderNonce : Nat
deriving DecidableEq, Repr

/-- The errors of `IEntropySource`, those of the signature library, and a
failed `require`. -/
inductive Error where
  | roundNotYetDrawable | roundDrawExpired | blockhashUnavailable | invalidSecret
  | invalidSignature | ecdsaInvalidSignatureLength | ecdsaInvalidSignatureS
  | ecdsaInvalidSignature | requireFailed (message : String) | panic
deriving DecidableEq, Repr

/-- The entropy contract on its chain. -/
structure Entropy where
  self : Address
  chainid : Nat
  keccak256 : List UInt8 → Bytes32
  ecrecover : Bytes32 → Nat → Nat → Nat → Address
  blockHash : Nat → Bytes32

/-- The EVM knows the hashes of the last 256 blocks. -/
def blockhash (e : Entropy) (m : Msg) (n : Nat) : Bytes32 :=
  if n < m.number ∧ m.number ≤ n + 256 then e.blockHash n else 0

/-! ## `RaffleMath` -/

namespace RaffleMath

def computeWinnerIndex (e : Entropy) (bh secret : Bytes32) (roundId tau : Nat) : Except Error Nat :=
  if ¬tau > 0 then .error (.requireFailed "RaffleMath: Tau must be positive")
  else .ok ((e.keccak256 (word bh.toNat ++ word secret.toNat ++ word roundId)).toNat % tau)

/-- One step up the tree; siblings are hashed in order of their value. -/
def merkleStep (e : Entropy) (computedHash proofElement : Bytes32) : Bytes32 :=
  if computedHash ≤ proofElement then
    e.keccak256 (word computedHash.toNat ++ word proofElement.toNat)
  else e.keccak256 (word proofElement.toNat ++ word computedHash.toNat)

def verifyMerkleProof (e : Entropy) (chunk : List UInt8) (localIndex : Nat)
    (proof : List Bytes32) (root : Bytes32) : Bool :=
  let leaf := e.keccak256 (word (e.keccak256 (word localIndex ++ chunk)).toNat)
  proof.foldl (merkleStep e) leaf = root

def isFallbackWinner (e : Entropy) (bh : Bytes32) (senderNonce : Nat) (secret : Bytes32)
    (winProb : Nat) : Bool :=
  (e.keccak256 (word bh.toNat ++ word senderNonce ++ word secret.toNat)).toNat < winProb

end RaffleMath

/-! ## `CommitRevealEntropy` -/

def confirmationDelay : Nat := 15

def maxBlockhashWindow : Nat := 256

section

variable (e : Entropy)

def computeWinnerIndex (m : Msg) (commitBlock : Nat) (secret : Bytes32)
    (roundId tau : Nat) : Except Error Nat :=
  match add256 commitBlock confirmationDelay with
  | none => .error .panic
  | some targetBlock =>
    if m.number < targetBlock then .error .roundNotYetDrawable
    else match add256 commitBlock maxBlockhashWindow with
      | none => .error .panic
      | some lastBlock =>
        if m.number > lastBlock then .error .roundDrawExpired
        else
          let targetBlockhash := blockhash e m targetBlock
          if targetBlockhash = 0 then .error .blockhashUnavailable
          else RaffleMath.computeWinnerIndex e targetBlockhash secret roundId tau

def roundTicketTypehash : Bytes32 :=
  e.keccak256 (ascii ("RoundTicket(address sender,address recipient,uint256 roundId," ++
    "uint256 localIndex,uint256 faceValue,uint256 winProb,uint256 senderNonce)"))

/-- What `_domainSeparatorV4` hashes: the name and version that the contract
gives to `EIP712`, the chain and the contract. -/
def domainBytes : List UInt8 :=
  abiEncode
    [(e.keccak256 (ascii ("EIP712Domain(string name,string version,uint256 chainId," ++
        "address verifyingContract)"))).toNat,
      (e.keccak256 (ascii "CIPHER Payment Protocol")).toNat,
      (e.keccak256 (ascii "1.0.0")).toNat, e.chainid, e.self.toNat]

def domainSeparator : Bytes32 := e.keccak256 (domainBytes e)

/-- What `_hashTypedDataV4` hashes. -/
def typedDataBytes (structHash : Bytes32) : List UInt8 :=
  [0x19, 0x01] ++ word (domainSeparator e).toNat ++ word structHash.toNat

/-- `_hashTypedDataV4` of OpenZeppelin's `EIP712`: `keccak256` of `0x1901`,
the domain separator and the hash of the struct, as in EIP-712. -/
def hashTypedData (structHash : Bytes32) : Bytes32 := e.keccak256 (typedDataBytes e structHash)

/-- What `roundTicketHash` hashes of a ticket. -/
def roundTicketBytes (ticket : RoundTicket) : List UInt8 :=
  abiEncode
    [(roundTicketTypehash e).toNat, ticket.sender.toNat, ticket.recipient.toNat, ticket.roundId,
      ticket.localIndex, ticket.faceValue, ticket.winProb, ticket.senderNonce]

def roundTicketHash (ticket : RoundTicket) : Bytes32 :=
  hashTypedData e (e.keccak256 (roundTicketBytes e ticket))

/-- `ECDSA.recover` of OpenZeppelin: a signature has 65 bytes, malleable ones
are rejected by requiring `s` in the lower half order, and a recovered
signer of zero is an error. -/
def recoverSigner (ticketHash : Bytes32) (sig : List UInt8) : Except Error Address :=
  if sig.length ≠ 65 then .error .ecdsaInvalidSignatureLength
  else
    let r := beNat (sig.take 32)
    let s := beNat ((sig.drop 32).take 32)
    let v := beNat ((sig.drop 64).take 1)
    if s > halfOrder then .error .ecdsaInvalidSignatureS
    else
      let signer := e.ecrecover ticketHash v r s
      if signer = 0 then .error .ecdsaInvalidSignature else .ok signer

def verifySecretCommitment (secret committedHash : Bytes32) : Bool :=
  e.keccak256 (word secret.toNat) = committedHash

end

end Cipher.Raffle
