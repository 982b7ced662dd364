import Cipher.TicketMessages
import Cipher.ChunkTickets

/-!
# Tickets that a provider takes

The ticket handler of the provider verifies a signature and stores the ticket.
It does not look at the ticket itself, and neither does the signer. So it takes
tickets that the chain does not (`accepted_on_chain_iff`), panics on an integer
that is missing (`intake_returns_iff`), takes a signature for the ticket with
the opposite integers as well (`ticket_bound_iff`), and a ticket as often as it
is sent (`nonces_increase`).
-/

namespace Cipher.Tickets

open Bytes Evm Geth Go Content ChunkProtocol Transition Function List

variable {κ ε : Type} {g : Crypto κ ε} {sigToPub : SigToPub ε}

/-! ## Verification -/

section Verify

variable {s : TicketSigner κ} {t : RoundTicket} {sig : List UInt8} {signer : Address}

lemma digest_eq_none : s.digest g t = none ↔ none ∈ t.integers := by
  obtain ⟨_, _, _ | _, _ | _, _ | _, _ | _, _ | _⟩ := t <;>
    simp [TicketSigner.digest, hashRoundTicket, encodedRoundTicket, paddedBig, RoundTicket.integers]

lemma verify_eq : s.verify g sigToPub t sig signer =
    if sig.length ≠ 65 then some false
    else (s.digest g t).map fun digest =>
      (sigToPub digest (sigCopy sig)).toOption = some signer := by
  rw [TicketSigner.verify, TicketSigner.recoverSigner]
  by_cases hlength : sig.length ≠ 65
  · rw [if_pos hlength, if_pos hlength]
  · rw [if_neg hlength, if_neg hlength]
    cases s.digest g t with
    | none => rfl
    | some digest => cases h : sigToPub digest (sigCopy sig) <;> simp [h, Except.toOption]

lemma verify_eq_none :
    s.verify g sigToPub t sig signer = none ↔ sig.length = 65 ∧ none ∈ t.integers := by
  rw [verify_eq, ← digest_eq_none (g := g) (s := s)]
  by_cases hlength : sig.length = 65 <;> simp [hlength]

lemma verify_eq_true : s.verify g sigToPub t sig signer = some true ↔ sig.length = 65 ∧
    ∃ digest, s.digest g t = some digest ∧
      (sigToPub digest (sigCopy sig)).toOption = some signer := by
  rw [verify_eq]
  by_cases hlength : sig.length = 65 <;> simp [hlength]

end Verify

/-! ## On the chain -/

/-- The precompile recovers what `crypto.SigToPub` does, for a `V` of 27 or 28,
and nobody for another one. -/
structure Recovers (sigToPub : SigToPub ε)
    (ecrecover : Bytes32 → Nat → Nat → Nat → Address) : Prop where
  agree : ∀ hash r s (v : UInt8), r.length = 32 → s.length = 32 → v = 27 ∨ v = 28 →
    ecrecover hash v.toNat (beNat r) (beNat s) =
      (sigToPub hash (r ++ s ++ [v - 27])).toOption.getD 0
  other : ∀ hash v r s, v ≠ 27 → v ≠ 28 → ecrecover hash v r s = 0

/-- A signature of 65 bytes has three parts. -/
lemma exists_signature {sig : List UInt8} (h : sig.length = 65) :
    ∃ r s v, sig = r ++ s ++ [v] ∧ r.length = 32 ∧ s.length = 32 := by
  obtain ⟨v, hv⟩ := length_eq_one_iff.mp (show (sig.drop 64).length = 1 by simp [h])
  refine ⟨sig.take 32, (sig.drop 32).take 32, v, ?_, by simp [h], by simp [h]⟩
  rw [← hv, ← take_add, take_append_drop]

lemma recovered_iff {e : Raffle.Entropy} (hrecovers : Recovers sigToPub e.ecrecover)
    {hash : Bytes32} {sig : List UInt8} (hlength : sig.length = 65)
    (hsig : (sigToPub hash (sigCopy sig)).toOption = some signer) :
    Raffle.recoverSigner e hash sig = .ok signer ↔ (sig[64]? = some 27 ∨ sig[64]? = some 28) ∧
      beNat ((sig.drop 32).take 32) ≤ halfOrder ∧ signer ≠ 0 := by
  obtain ⟨r, s, v, rfl, hr, hs⟩ := exists_signature hlength
  obtain ⟨hfirst, hmid, hlast⟩ := signature_parts (v := v) hr hs
  have hv : (r ++ s ++ [v])[64]? = some v := by simp [hr, hs]
  unfold Raffle.recoverSigner
  rw [if_neg (not_not_intro hlength), hfirst, hmid, hlast, hv]
  by_cases hhalf : beNat s > halfOrder
  · simp [hhalf]
  rw [if_neg hhalf]
  by_cases hv' : v = 27 ∨ v = 28
  · -- what the contract recovers is what the copy was checked for
    have hlow : (if 27 ≤ v then v - 27 else v) = v - 27 := by rcases hv' with rfl | rfl <;> rfl
    rw [sigCopy, modify_signature hr hs, hlow] at hsig
    rw [hrecovers.agree _ _ _ _ hr hs hv', hsig]
    by_cases hzero : signer = 0 <;> simp [hzero, hv', not_lt.mp hhalf]
  · obtain ⟨h27, h28⟩ := not_or.mp hv'
    have hnone := hrecovers.other hash v.toNat (beNat r) (beNat s)
      (fun h => h27 (UInt8.toNat_inj.mp h)) (fun h => h28 (UInt8.toNat_inj.mp h))
    simp [hnone, h27, h28]

/-- **What the provider accepts, the chain accepts** exactly if the integers fit,
`V` is 27 or 28 and `S` in the lower half, and the sender is not the zero
address. -/
theorem accepted_on_chain_iff {e : Raffle.Entropy}
    (hkeccak : ∀ data, g.keccak256Hash data = e.keccak256 data)
    (hchain : e.chainid < 2 ^ 256) (hrecovers : Recovers sigToPub e.ecrecover)
    {privKey : Option κ} {signer : TicketSigner κ}
    (hsigner : newTicketSigner g privKey (some e.chainid) e.self = some signer) {t : RoundTicket}
    {sig : List UInt8} (hverify : signer.verify g sigToPub t sig t.sender = some true) :
    (t.Fits ∧ Raffle.recoverSigner e (Raffle.roundTicketHash e t.toSolidity) sig = .ok t.sender) ↔
      t.Fits ∧ (sig[64]? = some 27 ∨ sig[64]? = some 28) ∧
        beNat ((sig.drop 32).take 32) ≤ halfOrder ∧ t.sender ≠ 0 := by
  refine and_congr_right fun hfits => ?_
  obtain ⟨s, hs, hdomain, -⟩ := newTicketSigner_eq hkeccak hchain privKey
  obtain rfl : s = signer := Option.some.inj (hs.symm.trans hsigner)
  obtain ⟨hlength, digest, hdigest, hrecover⟩ := verify_eq_true.mp hverify
  cases (digest_eq hkeccak hdomain hfits).symm.trans hdigest
  exact recovered_iff hrecovers hlength hrecover

/-- A signature is taken for one of the address that it begins with. -/
def sampleSigToPub (_ : Bytes32) (sig : List UInt8) : Except Unit Address :=
  .ok (BitVec.ofNat 160 (beNat (sig.take 32)))

def sampleSigner : TicketSigner Unit := ⟨some 31337, 0xe47, 0, none, 0⟩

def sampleJson : Json SignedTicket := ticketJson (fun _ => none) fun _ => 0

/-- A ticket of account 1 for round 7, with a sign for its integers and the end
of its signature. -/
def signedPayload (sign nonce v : String) : List UInt8 :=
  ascii "\x7b\"ticket\":\x7b\"sender\":\"0x0000000000000000000000000000000000000001\"," ++
  ascii "\"roundId\":" ++ ascii sign ++ ascii "7,\"localIndex\":0,\"faceValue\":" ++ ascii sign ++
  ascii "5,\"winProb\":" ++ ascii sign ++ ascii "1,\"senderNonce\":" ++ ascii sign ++
  ascii nonce ++ ascii "\x7d,\"signature\":\"" ++ List.replicate 40 0x41 ++ ascii "AAEA" ++
  List.replicate 40 0x41 ++ ascii v ++ ascii "\"\x7d"

def noncePayload : String → String → List UInt8 := signedPayload ""

def nonceTicket (nonce : Int) (v : UInt8) : SignedTicket :=
  ⟨⟨1, 0, some 7, some 0, some 5, some 1, some nonce⟩, word 1 ++ word 0 ++ [v]⟩

def samplePayload : String → List UInt8 := noncePayload "3"

def sampleTicket : UInt8 → SignedTicket := nonceTicket 3

def sampleChain : Raffle.Entropy :=
  { numberChain with
    ecrecover := fun _ v r _ => if v = 27 ∨ v = 28 then BitVec.ofNat 160 r else 0 }

lemma recovers_sample : Recovers sampleSigToPub sampleChain.ecrecover where
  agree := by
    intro hash r s v hr _ hv
    rcases hv with rfl | rfl <;>
      simp [sampleChain, sampleSigToPub, Except.toOption, take_left' hr]
  other := by
    intro hash v r s h27 h28
    exact if_neg (not_or.mpr ⟨h27, h28⟩)

set_option maxRecDepth 16384

lemma parse_sample : parseTicket sampleJson (samplePayload "AAA=") = some (sampleTicket 0) ∧
    parseTicket sampleJson (samplePayload "ABs=") = some (sampleTicket 27) := ⟨rfl, rfl⟩

lemma verify_sample (s : TicketSigner Unit) (v : UInt8) :
    s.verify numberGeth sampleSigToPub (sampleTicket v).ticket (sampleTicket v).signature 1 =
      some true :=
  verify_eq_true.mpr ⟨rfl, _, rfl, rfl⟩

theorem accepted_on_chain_27 : ∃ s, newTicketSigner numberGeth none (some 31337) 0xe47 = some s ∧
    parseTicket sampleJson (samplePayload "ABs=") = some (sampleTicket 27) ∧
    s.verify numberGeth sampleSigToPub (sampleTicket 27).ticket (sampleTicket 27).signature 1 =
      some true ∧
    Raffle.recoverSigner sampleChain
      (Raffle.roundTicketHash sampleChain (sampleTicket 27).ticket.toSolidity)
      (sampleTicket 27).signature = .ok 1 := by
  obtain ⟨s, hs, -⟩ := newTicketSigner_eq (e := sampleChain) (g := numberGeth) (fun _ => rfl)
    (by decide) none
  have hfits : (sampleTicket 27).ticket.Fits := by decide
  exact ⟨s, hs, parse_sample.2, verify_sample ..,
    (((accepted_on_chain_iff (fun _ => rfl) (by decide)
    recovers_sample hs (verify_sample s 27)).mpr ⟨hfits, .inl rfl, by decide, by decide⟩).2)⟩

/-- The signature as `crypto.Sign` returns it. -/
theorem accepted_not_on_chain : ∃ s, newTicketSigner numberGeth none (some 31337) 0xe47 = some s ∧
    parseTicket sampleJson (samplePayload "AAA=") = some (sampleTicket 0) ∧
    s.verify numberGeth sampleSigToPub (sampleTicket 0).ticket (sampleTicket 0).signature 1 =
      some true ∧
    Raffle.recoverSigner sampleChain
      (Raffle.roundTicketHash sampleChain (sampleTicket 0).ticket.toSolidity)
      (sampleTicket 0).signature = .error .ecdsaInvalidSignature := by
  obtain ⟨s, hs, -⟩ := newTicketSigner_eq (e := sampleChain) (g := numberGeth) (fun _ => rfl)
    (by decide) none
  exact ⟨s, hs, parse_sample.1, verify_sample s 0, rfl⟩

/-! ## The handler -/

/-- The ticket handler of the provider: its error, and the tickets stored. It is
`none` where it panics. `hex` is `Address.Hex`. -/
def ticketHandler (g : Crypto κ ε) (sigToPub : SigToPub ε)
    (hex : Address → Str) (verifierSigner : TicketSigner κ) (ticket : SignedTicket)
    (storedTickets : List SignedTicket) : Option (Option Str × List SignedTicket) :=
  (verifierSigner.verify g sigToPub ticket.ticket ticket.signature ticket.ticket.sender).map
    fun verified =>
      if verified then (none, storedTickets ++ [ticket])
      else
        (some (ascii "invalid ticket signature from " ++ hex ticket.ticket.sender), storedTickets)

section

variable (json : Json SignedTicket)

/-- `ParseTicket`, and the handler if there is a ticket. -/
def intake (handler : SignedTicket → List SignedTicket → Option (Option Str × List SignedTicket))
    (payload : List UInt8) (storedTickets : List SignedTicket) : Option (List SignedTicket) :=
  match parseTicket json payload with
  | none => some storedTickets
  | some ticket => (handler ticket storedTickets).map Prod.snd

/-- **The handler returns** exactly if no ticket has a signature of 65 bytes and
an integer that is missing. -/
theorem intake_returns_iff (g : Crypto κ ε) (sigToPub : SigToPub ε)
    (hex : Address → Str) (verifierSigner : TicketSigner κ)
    (marshal : SignedTicket → Option (List UInt8)) (spare : Nat → UInt8) (payload : List UInt8)
    (storedTickets : List SignedTicket) :
    intake (ticketJson marshal spare) (ticketHandler g sigToPub hex verifierSigner) payload
        storedTickets ≠ none ↔
      ∀ ticket, unmarshal spare payload = some ticket → ticket.signature.length = 65 →
        none ∉ ticket.ticket.integers := by
  have hparse : parseTicket (ticketJson marshal spare) payload = unmarshal spare payload := by
    cases payload <;> rfl
  rw [intake, hparse]
  cases unmarshal spare payload with
  | none => simp
  | some ticket => simp [ticketHandler, verify_eq_none]

/-- Nothing but a signature, of 65 zero bytes. -/
def barePayload : List UInt8 :=
  ascii "\x7b\"signature\":\"" ++ List.replicate 87 0x41 ++ ascii "=\"\x7d"

theorem intake_panics :
    intake sampleJson (ticketHandler numberGeth sampleSigToPub (fun _ => []) sampleSigner)
      barePayload [] = none := rfl

/-! ## What a signature binds -/

/-- The same integers with the other sign. -/
def RoundTicket.opposite (t : RoundTicket) : RoundTicket :=
  { t with
    roundID := t.roundID.map Neg.neg
    localIndex := t.localIndex.map Neg.neg
    faceValue := t.faceValue.map Neg.neg
    winProb := t.winProb.map Neg.neg
    senderNonce := t.senderNonce.map Neg.neg }

lemma encoded_opposite (g : Crypto κ ε) (t : RoundTicket) :
    encodedRoundTicket g t.opposite = encodedRoundTicket g t := by
  have hbig : ∀ n : Option Int, paddedBig (n.map Neg.neg) = paddedBig n := by
    rintro (_ | n)
    · rfl
    · have hlen : bitLen (-n) = bitLen n := by by_cases hn : n = 0 <;> simp [bitLen, hn]
      simp [paddedBig, paddedBigBytes, bigBytes, hlen]
  simp [encodedRoundTicket, RoundTicket.opposite, hbig]

lemma beNat_paddedBigBytes (n : Int) (k : Nat) : beNat (paddedBigBytes n k) = n.natAbs := by
  have hlt : ∀ i, bitLen n ≤ 8 * i → n.natAbs % 256 ^ i = n.natAbs := by
    intro i hi
    rw [show 256 ^ i = 2 ^ (8 * i) from (pow_mul 2 8 i).symm]
    exact Nat.mod_eq_of_lt ((bitLen_le_iff n _).mp hi)
  unfold paddedBigBytes bigBytes
  split
  · rw [beNat_beBytes, hlt _ (by omega)]
  · rw [beNat_beBytes, hlt _ (by omega)]

lemma exists_integers {t : RoundTicket} (h : none ∉ t.integers) : ∃ a b c d e,
    t = ⟨t.sender, t.recipient, some a, some b, some c, some d, some e⟩ := by
  obtain ⟨_, _, _ | _, _ | _, _ | _, _ | _, _ | _⟩ := t <;> simp [RoundTicket.integers] at h ⊢

/-- The sign of an integer, and the number of bytes that it is encoded in. -/
def signAndWidth (n : Int) : Bool × Nat := (n < 0, max 32 ((bitLen n + 7) / 8))

def RoundTicket.shape (t : RoundTicket) : List (Option (Bool × Nat)) :=
  t.integers.map (Option.map signAndWidth)

lemma shape_of_fits {t : RoundTicket} (h : t.Fits) : t.shape = replicate 5 (some (false, 32)) := by
  refine eq_replicate_iff.mpr ⟨rfl, forall_mem_map.mpr fun n hn => ?_⟩
  obtain ⟨v, rfl, hnonneg, hlt⟩ := RoundTicket.fits_iff.mp h n hn
  have hlen := (bitLen_le_iff v 256).mpr (by omega)
  simp only [signAndWidth, Option.map_some, Option.some.injEq, Prod.mk.injEq,
    decide_eq_false_iff_not]
  omega

lemma eq_of_signAndWidth {a b : Int} (h : signAndWidth a = signAndWidth b)
    (hbytes : paddedBigBytes a 32 ++ s = paddedBigBytes b 32 ++ s') : a = b ∧ s = s' := by
  have hlen : ∀ n, (paddedBigBytes n 32).length = (signAndWidth n).2 := by
    intro n
    unfold paddedBigBytes bigBytes signAndWidth
    split <;> simp only [length_beBytes] <;> omega
  obtain ⟨hbytes, hrest⟩ := append_inj hbytes (by rw [hlen, hlen, h])
  have habs := congrArg beNat hbytes
  rw [beNat_paddedBigBytes, beNat_paddedBigBytes] at habs
  have hsign := decide_eq_decide.mp (congrArg Prod.fst h)
  exact ⟨by omega, hrest⟩

/-- The encoding is read back from the left, one field after the other. -/
lemma eq_of_encoded {t t' : RoundTicket} (ht : none ∉ t.integers) (ht' : none ∉ t'.integers)
    (hshape : t'.shape = t.shape) (h : encodedRoundTicket g t' = encodedRoundTicket g t) :
    t' = t := by
  obtain ⟨a, b, c, d, e, heq⟩ := exists_integers ht
  obtain ⟨a', b', c', d', e', heq'⟩ := exists_integers ht'
  rw [heq, heq'] at h hshape ⊢
  simp only [RoundTicket.shape, RoundTicket.integers, map_cons, cons.injEq, Option.map_some,
    Option.some.injEq] at hshape
  obtain ⟨ha, hb, hc, hd, he, -⟩ := hshape
  have hlt : ∀ a : Address, a.toNat < 256 ^ 32 := fun a => a.isLt.trans (by decide)
  have hbytes := Option.some.inj h
  simp only [paddedAddress_eq, append_assoc] at hbytes
  obtain ⟨hsender, hbytes⟩ := beBytes_append_inj (hlt _) (hlt _) (append_cancel_left hbytes)
  obtain ⟨hrecipient, hbytes⟩ := beBytes_append_inj (hlt _) (hlt _) hbytes
  obtain ⟨ha, hbytes⟩ := eq_of_signAndWidth ha hbytes
  obtain ⟨hb, hbytes⟩ := eq_of_signAndWidth hb hbytes
  obtain ⟨hc, hbytes⟩ := eq_of_signAndWidth hc hbytes
  obtain ⟨hd, hbytes⟩ := eq_of_signAndWidth hd hbytes
  obtain ⟨he, -⟩ := eq_of_signAndWidth he (congrArg (· ++ []) hbytes)
  rw [BitVec.toNat_inj.mp hsender, BitVec.toNat_inj.mp hrecipient, ha, hb, hc, hd, he]

/-- Tickets that can be delivered with all integers. -/
def Deliverable (t : RoundTicket) : Prop :=
  none ∉ t.integers ∧ ∃ payload ticket, parseTicket json payload = some ticket ∧ ticket.ticket = t

/-- **A signature binds a ticket**: two tickets of one encoding are the same exactly
if their integers agree in sign and width, as they do if they fit, and exactly then
a signature of the one is accepted for no other. -/
theorem ticket_bound_iff (g : Crypto κ ε) (sigToPub : SigToPub ε)
    (s : TicketSigner κ) (marshal : SignedTicket → Option (List UInt8)) (spare : Nat → UInt8)
    (t t' : RoundTicket) (ht : Deliverable (ticketJson marshal spare) t)
    (ht' : Deliverable (ticketJson marshal spare) t')
    (hencoded : encodedRoundTicket g t' = encodedRoundTicket g t) :
    (t' = t ↔ t'.shape = t.shape) ∧ (t'.Fits → t.Fits → t' = t) ∧
    ∀ sig signer, s.verify g sigToPub t sig signer = some true →
      ((s.verify g sigToPub t' sig signer = some true → t' = t) ↔ t'.shape = t.shape) := by
  have hbound : t' = t ↔ t'.shape = t.shape :=
    ⟨congrArg _, fun hshape => eq_of_encoded ht.1 ht'.1 hshape hencoded⟩
  refine ⟨hbound, fun hfits' hfits => ?_, fun sig signer hverify => ?_⟩
  · rw [hbound, shape_of_fits hfits, shape_of_fits hfits']
  · -- the digest is the same
    have hsame : s.verify g sigToPub t' sig signer = some true := by
      rw [verify_eq] at hverify ⊢
      rwa [TicketSigner.digest, hashRoundTicket, hencoded]
    rw [← hbound, forall_prop_of_true hsame]

/-- The other ticket has the number of the round and all else with a minus sign. -/
theorem signature_of_two_tickets : Deliverable sampleJson (sampleTicket 27).ticket ∧
    Deliverable sampleJson (sampleTicket 27).ticket.opposite ∧
    (sampleTicket 27).ticket.opposite.senderNonce = some (-3) ∧
    encodedRoundTicket numberGeth (sampleTicket 27).ticket.opposite =
      encodedRoundTicket numberGeth (sampleTicket 27).ticket ∧
    sampleSigner.verify numberGeth sampleSigToPub (sampleTicket 27).ticket
      (sampleTicket 27).signature 1 = some true ∧
    sampleSigner.verify numberGeth sampleSigToPub (sampleTicket 27).ticket.opposite
      (sampleTicket 27).signature 1 = some true := by
  have hopposite : parseTicket sampleJson (signedPayload "-" "3" "ABs=") =
      some ⟨(sampleTicket 27).ticket.opposite, (sampleTicket 27).signature⟩ := rfl
  exact ⟨⟨by decide, _, _, parse_sample.2, rfl⟩, ⟨by decide, _, _, hopposite, rfl⟩, rfl,
    encoded_opposite _ _, verify_sample .., verify_eq_true.mpr ⟨rfl, _, rfl, rfl⟩⟩

/-- Among the tickets that fit, the signature is good for one. -/
theorem ticket_bound_sample : Deliverable sampleJson (sampleTicket 27).ticket ∧
    ∀ t', Deliverable sampleJson t' → t'.Fits →
      encodedRoundTicket numberGeth t' = encodedRoundTicket numberGeth (sampleTicket 27).ticket →
      sampleSigner.verify numberGeth sampleSigToPub t' (sampleTicket 27).signature 1 = some true ∧
        t' = (sampleTicket 27).ticket := by
  have ht : Deliverable sampleJson (sampleTicket 27).ticket :=
    ⟨by decide, _, _, parse_sample.2, rfl⟩
  refine ⟨ht, fun t' ht' hfits hencoded => ?_⟩
  obtain ⟨-, hbound, -⟩ := ticket_bound_iff _ sampleSigToPub sampleSigner
    (fun _ => none) (fun _ => 0) _ _ ht ht' hencoded
  obtain rfl := hbound hfits (by decide)
  exact ⟨verify_sample .., rfl⟩

/-! ## Tickets over all streams -/

/-- The handler of each stream waits somewhere; they share the stored tickets. -/
structure Intake where
  phases : Nat → Phase
  storedTickets : List SignedTicket

def Intake.init : Intake := ⟨fun _ => .loop, []⟩

/-- What a stream reads, with the chunks of the provider at that time. -/
structure StreamRead where
  stream : Nat
  store : Storage
  corrupt : Bool
  read : Read

/-- The ticket in a message that is read instead of an acknowledgement. -/
def StreamRead.ticket (a : StreamRead) (n : Intake) : Option SignedTicket :=
  match n.phases a.stream, a.read with
  | .awaitAck, .message ackMsg =>
    if ackMsg.type = msgTicket then parseTicket json ackMsg.payload else none
  | _, _ => none

/-- There is no next state if the handler panics. -/
def Intake.step
    (handler : SignedTicket → List SignedTicket → Option (Option Str × List SignedTicket))
    (a : StreamRead) (n : Intake) : Option Intake :=
  let provider : Provider SignedTicket :=
    { store := a.store, json, corrupt := a.corrupt
      ticketHandler := some fun ticket => (handler ticket n.storedTickets).bind Prod.fst }
  let phases := update n.phases a.stream (provider.handle (n.phases a.stream) a.read).1
  match a.ticket json n with
  | none => some { n with phases }
  | some ticket => (handler ticket n.storedTickets).map fun result => ⟨phases, result.2⟩

end

/-- The second ticket has a higher nonce, if it is for the same round. -/
def Advances (a b : SignedTicket) : Prop :=
  a.ticket.sender = b.ticket.sender → a.ticket.roundID = b.ticket.roundID →
    a.ticket.senderNonce.getD 0 < b.ticket.senderNonce.getD 0

/-- **No ticket pays twice**, if every ticket that verifies advances the nonce of
its round. -/
theorem nonces_increase (g : Crypto κ ε) (sigToPub : SigToPub ε)
    (hex : Address → Str) (verifierSigner : TicketSigner κ)
    (json : Json SignedTicket) (n : Intake)
    (hrun : Run (Intake.step json (ticketHandler g sigToPub hex verifierSigner))
      (fun a n => ∀ ticket, a.ticket json n = some ticket →
        verifierSigner.verify g sigToPub ticket.ticket ticket.signature ticket.ticket.sender =
          some true → ∀ stored ∈ n.storedTickets, Advances stored ticket) .init n) :
    n.storedTickets.Pairwise Advances ∧ n.storedTickets.Nodup := by
  have hpairwise : n.storedTickets.Pairwise Advances := by
    refine hrun.inv (I := fun n => n.storedTickets.Pairwise Advances) .nil ?_
    intro a n n' hok hstep hn
    unfold Intake.step at hstep
    split at hstep
    · cases hstep
      exact hn
    rename_i ticket hticket
    rw [ticketHandler, Option.map_map] at hstep
    obtain ⟨verified, hverify, rfl⟩ := Option.map_eq_some_iff.mp hstep
    cases verified with
    | false => exact hn
    | true =>
      refine pairwise_append.mpr ⟨hn, pairwise_singleton _ _, fun stored hstored b hb => ?_⟩
      obtain rfl := mem_singleton.mp hb
      exact hok _ hticket hverify stored hstored
  refine ⟨hpairwise, hpairwise.imp fun {a b} h hab => ?_⟩
  subst hab
  exact lt_irrefl _ (h rfl rfl)

/-- A message on a stream of a provider of one chunk. -/
def sampleRead (stream : Nat) (msg : Message) : StreamRead :=
  ⟨stream, (zeroProvider none).store, false, .message msg⟩

/-- The chunk is asked for and paid for with the ticket of the nonce. -/
def samplePurchase (stream : Nat) (nonce : String) : List StreamRead :=
  [sampleRead stream (buildRequestChunk (zeroBlock 32)),
    sampleRead stream (build msgTicket (noncePayload nonce "ABs="))]

def sampleStep : StreamRead → Intake → Option Intake :=
  Intake.step sampleJson (ticketHandler numberGeth sampleSigToPub (fun _ => []) sampleSigner)

/-- The same ticket on two streams. -/
theorem ticket_pays_twice :
    ∃ n, execute sampleStep (samplePurchase 0 "3" ++ samplePurchase 1 "3") .init = some n ∧
    n.storedTickets = [nonceTicket 3 27, nonceTicket 3 27] :=
  ⟨_, rfl, rfl⟩

/-- Two tickets of one round on two streams. -/
theorem nonces_increase_pair :
    ∃ n, execute sampleStep (samplePurchase 0 "3" ++ samplePurchase 1 "4") .init = some n ∧
    n.storedTickets = [nonceTicket 3 27, nonceTicket 4 27] ∧
    n.storedTickets.Pairwise Advances ∧ n.storedTickets.Nodup := by
  have hnone {ticket : SignedTicket} {P : Prop} (h : ticket ∈ []) : P := absurd h not_mem_nil
  refine ⟨_, rfl, rfl, nonces_increase numberGeth sampleSigToPub (fun _ => []) sampleSigner
    sampleJson _ (.tail (.tail (.tail (.tail .refl
      (a := sampleRead 0 (buildRequestChunk (zeroBlock 32))) (fun _ _ _ _ h => hnone h) rfl)
      (a := sampleRead 0 (build msgTicket (samplePayload "ABs="))) (fun _ _ _ _ h => hnone h) rfl)
      (a := sampleRead 1 (buildRequestChunk (zeroBlock 32))) nofun rfl)
      (a := sampleRead 1 (build msgTicket (noncePayload "4" "ABs="))) ?_ rfl)⟩
  intro ticket hticket _ stored hstored
  obtain rfl : nonceTicket 4 27 = ticket := Option.some.inj hticket
  obtain rfl : stored = nonceTicket 3 27 := mem_singleton.mp hstored
  exact fun _ _ => by decide

end Cipher.Tickets
