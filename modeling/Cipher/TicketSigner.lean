import Cipher.Geth
import Cipher.Raffle

/-!
# Tickets signed off chain

`TicketSigner` of the Go package `payments`, which hashes and signs a ticket
the way `CommitRevealEntropy` verifies it. The two sides put three byte
strings together by hand: the domain, the ticket, and the typed data that
holds the hashes of both. They agree on each of them as long as the
integers of the ticket are such that a contract can be called with them
(`ticket_bytes_agree`). The Go side does not insist on that. Its integers are
pointers to numbers of any size and sign; a nil one makes hashing panic, and
a number of more than 32 bytes is hashed with all of them.

`signTicket_recovered` is the contract between the two sides: the signer of
a ticket is the one that the chain recovers.
-/

namespace Cipher.Tickets

open Bytes Evm Geth

variable {κ ε : Type}

structure RoundTicket where
  sender : Address
  recipient : Address
  roundID : Option Int
  localIndex : Option Int
  faceValue : Option Int
  winProb : Option Int
  senderNonce : Option Int
deriving DecidableEq, Repr

/-- The integers of a ticket. -/
def RoundTicket.integers (t : RoundTicket) : List (Option Int) :=
  [t.roundID, t.localIndex, t.faceValue, t.winProb, t.senderNonce]

/-! ## Hashing -/

section

variable (g : Crypto κ ε)

def eip712DomainTypeHash : Bytes32 :=
  g.keccak256Hash (ascii ("EIP712Domain(string name,string version,uint256 chainId," ++
    "address verifyingContract)"))

def roundTicketTypeHash : Bytes32 :=
  g.keccak256Hash (ascii ("RoundTicket(address sender,address recipient,uint256 roundId," ++
    "uint256 localIndex,uint256 faceValue,uint256 winProb,uint256 senderNonce)"))

def protocolNameHash : Bytes32 :=
  g.keccak256Hash (ascii "CIPHER Payment Protocol")

def protocolVersionHash : Bytes32 := g.keccak256Hash (ascii "1.0.0")

/-- `LeftPadBytes` of an address, to a word. -/
def paddedAddress (a : Address) : List UInt8 := leftPadBytes (beBytes 20 a.toNat) 32

/-- `PaddedBigBytes` of a pointer, to a word; `none` is a panic. -/
def paddedBig (n : Option Int) : Option (List UInt8) := n.map (paddedBigBytes · 32)

/-- What `ComputeDomainSeparator` hashes. -/
def encodedDomain (chainID : Option Int) (verifyingContract : Address) :
    Option (List UInt8) := do
  let chainID ← paddedBig chainID
  return word (eip712DomainTypeHash g).toNat ++ word (protocolNameHash g).toNat
    ++ word (protocolVersionHash g).toNat ++ chainID ++ paddedAddress verifyingContract

def computeDomainSeparator (chainID : Option Int) (verifyingContract : Address) : Option Bytes32 :=
  (encodedDomain g chainID verifyingContract).map g.keccak256Hash

/-- What `HashRoundTicket` hashes. -/
def encodedRoundTicket (ticket : RoundTicket) : Option (List UInt8) := do
  let roundID ← paddedBig ticket.roundID
  let localIndex ← paddedBig ticket.localIndex
  let faceValue ← paddedBig ticket.faceValue
  let winProb ← paddedBig ticket.winProb
  let senderNonce ← paddedBig ticket.senderNonce
  return word (roundTicketTypeHash g).toNat ++ paddedAddress ticket.sender
    ++ paddedAddress ticket.recipient ++ roundID ++ localIndex ++ faceValue ++ winProb
    ++ senderNonce

def hashRoundTicket (ticket : RoundTicket) : Option Bytes32 :=
  (encodedRoundTicket g ticket).map g.keccak256Hash

/-- What `HashTypedData` hashes. -/
def typedData (domainSeparator structHash : Bytes32) : List UInt8 :=
  [0x19, 0x01] ++ word domainSeparator.toNat ++ word structHash.toNat

def hashTypedData (domainSeparator structHash : Bytes32) : Bytes32 :=
  g.keccak256Hash (typedData domainSeparator structHash)

/-! ## The signer -/

structure TicketSigner (κ : Type) where
  chainID : Option Int
  verifyingContract : Address
  domainSeparator : Bytes32
  privateKey : Option κ
  address : Address

/-- Without a key the signer can only verify. -/
def newTicketSigner (privKey : Option κ) (chainID : Option Int)
    (verifyingContract : Address) : Option (TicketSigner κ) := do
  let domainSep ← computeDomainSeparator g chainID verifyingContract
  let addr := match privKey with
    | some privKey => g.pubkeyToAddress privKey
    | none => 0
  return {
    chainID
    verifyingContract
    domainSeparator := domainSep
    privateKey := privKey
    address := addr }

end

/-- What a call of the signer ends with instead of a signature. -/
inductive Error (ε : Type) where
  | new (text : String)
  | wrap (text : String) (err : ε)
  | panic
deriving DecidableEq, Repr

/-- The copy of a signature whose `V` is 0 or 1 again. -/
def sigCopy (sig : List UInt8) : List UInt8 := sig.modify 64 fun v => if 27 ≤ v then v - 27 else v

/-- `crypto.SigToPub` followed by `crypto.PubkeyToAddress`. -/
abbrev SigToPub (ε : Type) := Bytes32 → List UInt8 → Except ε Address

namespace TicketSigner

section

variable (g : Crypto κ ε) (s : TicketSigner κ) (ticket : RoundTicket)

def digest : Option Bytes32 := do
  let structHash ← hashRoundTicket g ticket
  return hashTypedData g s.domainSeparator structHash

/-- `crypto.Sign` returns 65 bytes, with a last one of 0 or 1. -/
def signTicket : Except (Error ε) (List UInt8) :=
  match s.privateKey with
  | none => .error (.new "cannot sign ticket: private key is nil")
  | some privateKey =>
    match s.digest g ticket with
    | none => .error .panic
    | some digest =>
      match g.sign (word digest.toNat) privateKey with
      | .error err => .error (.wrap "failed to sign ticket digest" err)
      | .ok sig => .ok (sig.modify 64 fun v => if v < 27 then v + 27 else v)

end

section

variable (g : Crypto κ ε) (sigToPub : SigToPub ε) (s : TicketSigner κ)
  (ticket : RoundTicket) (sig : List UInt8)

def recoverSigner : Except (Error ε) Address :=
  if sig.length ≠ 65 then
    .error (.new ("invalid signature length: " ++ toString sig.length ++ " (expected 65)"))
  else
    match s.digest g ticket with
    | none => .error .panic
    | some digest =>
      match sigToPub digest (sigCopy sig) with
      | .error err => .error (.wrap "failed to recover public key" err)
      | .ok address => .ok address

/-- `none` is a panic. -/
def verify (expectedSigner : Address) : Option Bool :=
  match s.recoverSigner g sigToPub ticket sig with
  | .error .panic => none
  | .error _ => some false
  | .ok recovered => some (recovered = expectedSigner)

end

end TicketSigner

/-! ## The same ticket on the chain -/

/-- A pointer to a number that fits into a `uint256`. -/
def IsUint256 (n : Option Int) : Prop := ∃ v, n = some v ∧ 0 ≤ v ∧ v < 2 ^ 256

/-- All integers of a ticket fit. -/
structure RoundTicket.Fits (t : RoundTicket) : Prop where
  roundID : IsUint256 t.roundID
  localIndex : IsUint256 t.localIndex
  faceValue : IsUint256 t.faceValue
  winProb : IsUint256 t.winProb
  senderNonce : IsUint256 t.senderNonce

instance : DecidablePred IsUint256
  | none => isFalse nofun
  | some v => decidable_of_iff (0 ≤ v ∧ v < 2 ^ 256)
    ⟨fun h => ⟨v, rfl, h⟩, fun ⟨_, hv, h⟩ => Option.some.inj hv ▸ h⟩

lemma RoundTicket.fits_iff {t : RoundTicket} : t.Fits ↔ ∀ n ∈ t.integers, IsUint256 n := by
  simp only [RoundTicket.integers, List.forall_mem_cons]
  exact ⟨fun ⟨a, b, c, d, e⟩ => ⟨a, b, c, d, e, nofun⟩, fun ⟨a, b, c, d, e, _⟩ => ⟨a, b, c, d, e⟩⟩

instance (t : RoundTicket) : Decidable t.Fits := decidable_of_iff _ RoundTicket.fits_iff.symm

/-- The ticket that the contract is called with. -/
def RoundTicket.toSolidity (t : RoundTicket) : Raffle.RoundTicket where
  sender := t.sender
  recipient := t.recipient
  roundId := (t.roundID.getD 0).toNat
  localIndex := (t.localIndex.getD 0).toNat
  faceValue := (t.faceValue.getD 0).toNat
  winProb := (t.winProb.getD 0).toNat
  senderNonce := (t.senderNonce.getD 0).toNat

lemma paddedAddress_eq (a : Address) : paddedAddress a = word a.toNat :=
  leftPadBytes_beBytes (by decide) a.isLt

lemma paddedBig_eq (h : IsUint256 n) : paddedBig n = some (word (n.getD 0).toNat) := by
  obtain ⟨v, rfl, hnonneg, hlt⟩ := h
  have hbound : v.natAbs < 256 ^ 32 := by omega
  have habs : v.natAbs = v.toNat := by omega
  show some (paddedBigBytes v 32) = some (beBytes 32 v.toNat)
  rw [paddedBigBytes_eq hbound, habs]

section Agreement

variable {g : Crypto κ ε} {e : Raffle.Entropy}

section

variable (hkeccak : ∀ data, g.keccak256Hash data = e.keccak256 data)

include hkeccak

lemma encodedDomain_eq (hchain : e.chainid < 2 ^ 256) :
    encodedDomain g (some e.chainid) e.self = some (Raffle.domainBytes e) := by
  have hid : IsUint256 (some (e.chainid : Int)) := ⟨_, rfl, by omega, by omega⟩
  unfold encodedDomain
  rw [paddedBig_eq hid, paddedAddress_eq]
  simp [Raffle.domainBytes, abiEncode, eip712DomainTypeHash, protocolNameHash,
    protocolVersionHash, hkeccak]

lemma encodedRoundTicket_eq {t : RoundTicket} (ht : t.Fits) :
    encodedRoundTicket g t = some (Raffle.roundTicketBytes e t.toSolidity) := by
  unfold encodedRoundTicket
  rw [paddedBig_eq ht.roundID, paddedBig_eq ht.localIndex, paddedBig_eq ht.faceValue,
    paddedBig_eq ht.winProb, paddedBig_eq ht.senderNonce, paddedAddress_eq, paddedAddress_eq]
  simp [Raffle.roundTicketBytes, abiEncode, roundTicketTypeHash, Raffle.roundTicketTypehash,
    RoundTicket.toSolidity, hkeccak]

/-- A signer for the chain has the contract's domain separator. -/
lemma newTicketSigner_eq (hchain : e.chainid < 2 ^ 256) (privKey : Option κ) :
    ∃ s, newTicketSigner g privKey (some e.chainid) e.self = some s
      ∧ s.domainSeparator = Raffle.domainSeparator e ∧ s.privateKey = privKey := by
  unfold newTicketSigner computeDomainSeparator
  rw [encodedDomain_eq hkeccak hchain]
  exact ⟨_, rfl, hkeccak _, rfl⟩

/-- Such a signer computes the contract's hash of a ticket. -/
lemma digest_eq {s : TicketSigner κ} (hs : s.domainSeparator = Raffle.domainSeparator e)
    {t : RoundTicket}
    (ht : t.Fits) : s.digest g t = some (Raffle.roundTicketHash e t.toSolidity) := by
  unfold TicketSigner.digest hashRoundTicket hashTypedData typedData
  rw [encodedRoundTicket_eq hkeccak ht, hs]
  simp only [Option.map_some, hkeccak]
  rfl

end

end Agreement

/-- **Go and Solidity hash the same ticket**, on the chain and for the
contract that the signer was made for: the three byte strings are equal, and
so is the digest. -/
theorem ticket_bytes_agree (g : Crypto κ ε) (e : Raffle.Entropy)
    (hkeccak : ∀ data, g.keccak256Hash data = e.keccak256 data) (hchain : e.chainid < 2 ^ 256)
    (privKey : Option κ) (t : RoundTicket) (ht : t.Fits) :
    ∃ s structHash, newTicketSigner g privKey (some e.chainid) e.self = some s
      ∧ hashRoundTicket g t = some structHash
      ∧ (encodedDomain g (some e.chainid) e.self = some (Raffle.domainBytes e)
        ∧ Raffle.domainSeparator e = e.keccak256 (Raffle.domainBytes e))
      ∧ (encodedRoundTicket g t = some (Raffle.roundTicketBytes e t.toSolidity)
        ∧ structHash = e.keccak256 (Raffle.roundTicketBytes e t.toSolidity))
      ∧ typedData s.domainSeparator structHash = Raffle.typedDataBytes e structHash
      ∧ s.digest g t = some (e.keccak256 (Raffle.typedDataBytes e structHash))
      ∧ Raffle.roundTicketHash e t.toSolidity
        = e.keccak256 (Raffle.typedDataBytes e structHash) := by
  obtain ⟨s, hs, hdomain, -⟩ := newTicketSigner_eq hkeccak hchain privKey
  have hstruct : hashRoundTicket g t
      = some (e.keccak256 (Raffle.roundTicketBytes e t.toSolidity)) := by
    unfold hashRoundTicket
    rw [encodedRoundTicket_eq hkeccak ht, Option.map_some, hkeccak]
  refine ⟨s, _, hs, hstruct, ⟨encodedDomain_eq hkeccak hchain, rfl⟩,
    ⟨encodedRoundTicket_eq hkeccak ht, rfl⟩, ?_, digest_eq hkeccak hdomain ht, rfl⟩
  rw [hdomain]
  rfl

/-- A chain whose hash is the number that the bytes are. -/
def numberChain : Raffle.Entropy where
  self := 0xe47
  chainid := 31337
  keccak256 bs := BitVec.ofNat 256 (beNat bs)
  ecrecover _ _ r _ := BitVec.ofNat 160 r
  blockHash _ := 0

def numberGeth : Crypto Unit Unit where
  keccak256Hash := numberChain.keccak256
  pubkeyToAddress _ := 1
  pack _ := .error ()
  sign _ _ := .ok (word 1 ++ word 0 ++ [0])

/-- The smallest and the largest values that fit. -/
def extremeTicket : RoundTicket where
  sender := 1
  recipient := 2
  roundID := some 7
  localIndex := some 0
  faceValue := some (2 ^ 256 - 1)
  winProb := some (2 ^ 255)
  senderNonce := some 255

theorem ticket_bytes_extreme : extremeTicket.Fits ∧ encodedRoundTicket numberGeth extremeTicket
      = some (Raffle.roundTicketBytes numberChain extremeTicket.toSolidity) := by
  have hfits : extremeTicket.Fits := by decide
  obtain ⟨s, structHash, -, -, -, hbytes, -⟩ := ticket_bytes_agree numberGeth numberChain
    (fun _ => rfl) (by decide) none _ hfits
  exact ⟨hfits, hbytes.1⟩

/-! ## Signed tickets -/

/-- **A signed ticket is accepted on the chain**: the entropy contract
recovers the owner of the key from the signature. -/
theorem signTicket_recovered {g : Crypto κ ε} {e : Raffle.Entropy} {key : κ} {s : TicketSigner κ}
    {t : RoundTicket} {sig : List UInt8}
    (hg : g.Correct e.keccak256 e.ecrecover halfOrder) (hchain : e.chainid < 2 ^ 256)
    (haddress : g.pubkeyToAddress key ≠ 0)
    (hs : newTicketSigner g (some key) (some e.chainid) e.self = some s)
    (ht : t.Fits) (hsig : s.signTicket g t = .ok sig) :
    Raffle.recoverSigner e (Raffle.roundTicketHash e t.toSolidity) sig
      = .ok (g.pubkeyToAddress key) := by
  obtain ⟨s', hs', hdomain, hkey⟩ := newTicketSigner_eq hg.hash hchain _
  obtain rfl : s' = s := Option.some.inj (hs'.symm.trans hs)
  unfold TicketSigner.signTicket at hsig
  rw [hkey, digest_eq hg.hash hdomain ht] at hsig
  simp only at hsig
  split at hsig
  · cases hsig
  rename_i raw hraw
  obtain ⟨r, s, v, rfl, hr, hlen, hv, hhalf, hrecover⟩ := hg.signs _ _ _ hraw
  have hraised : (if v < 27 then v + 27 else v) = v + 27 ∧ (v + 27).toNat = 27 + v.toNat := by
    rcases hv with rfl | rfl <;> decide
  rw [modify_signature hr hlen, hraised.1] at hsig
  cases hsig
  obtain ⟨hfirst, hmid, hlast⟩ := signature_parts (v := v + 27) hr hlen
  unfold Raffle.recoverSigner
  rw [if_neg (by simp [hr, hlen]), hfirst, hmid, hlast]
  rw [if_neg (by omega), hraised.2, hrecover, if_neg haddress]

/-- The same with `abi.encode`. -/
def packGeth : Crypto Unit Unit :=
  { numberGeth with pack := fun args => .ok (abiEncode (args.map (·.value))) }

theorem signTicket_recovered_extreme : ∃ s sig,
    newTicketSigner packGeth (some ()) (some numberChain.chainid) numberChain.self = some s ∧
      s.signTicket packGeth extremeTicket = .ok sig ∧
      Raffle.recoverSigner numberChain (Raffle.roundTicketHash numberChain
        extremeTicket.toSolidity) sig = .ok 1 := by
  have hcorrect : packGeth.Correct numberChain.keccak256 numberChain.ecrecover halfOrder := by
    refine ⟨fun _ => rfl, fun _ _ => rfl, fun hash key sig hsig => ?_⟩
    cases hsig
    refine ⟨word 1, word 0, 0, rfl, by decide, by decide, .inl rfl, by decide, ?_⟩
    exact (show BitVec.ofNat 160 (beNat (word 1)) = 1 by decide)
  have hfits : extremeTicket.Fits := by decide
  have hkey : packGeth.pubkeyToAddress () ≠ 0 := by decide
  exact ⟨_, _, rfl, rfl, signTicket_recovered hcorrect (by decide) hkey rfl hfits rfl⟩

end Cipher.Tickets
