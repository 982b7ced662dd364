import Cipher.Json
import Cipher.TicketSigner
import Cipher.ChunkProtocol

/-!
# Tickets on the wire

A ticket is sent as JSON, and `ParseTicket` takes what `json.Unmarshal` makes
of it. Fields that are missing are left zero, an integer can be `null` and can
have any sign and length, and so can the signature have any length.
-/

namespace Cipher.Tickets

open Bytes Evm Geth Go Json ChunkProtocol List Option

set_option maxRecDepth 8192

structure SignedTicket where
  ticket : RoundTicket
  signature : List UInt8
deriving DecidableEq, Repr

/-- `common.Address` takes the text between the quotes as it stands. -/
def addressOf : Value → Option Address
  | .string text =>
    let digits := text.drop 2
    if has0xPrefix text ∧ digits.length = 40 ∧ digits.all (hexVal · |>.isSome) then
      some (hexToAddress text)
    else none
  | _ => none

/-- `null` makes the pointer nil. -/
def integerOf : Value → Option (Option Int)
  | .null => some none
  | .number text => (integer text).map some
  | _ => none

/-- An element of a byte slice. -/
def byteOf (old : UInt8) : Value → Option UInt8
  | .null => some old
  | .number text => (integer text).bind fun n =>
    if text.head? = some 0x2d ∨ 255 < n then none else some (UInt8.ofNat n.toNat)
  | _ => none

/-- An element that is `null` keeps what is in memory, which is `spare`. -/
def bytesOf (spare : Nat → UInt8) : Value → Option (List UInt8)
  | .null => some []
  | .string text => decodeBase64 (runes text)
  | .array items => items.zipIdx.mapM fun (v, i) => byteOf (spare i) v
  | _ => none

/-- The fields of a struct are stored one after the other; `null` stores
nothing. -/
def storeStruct {α : Type} (store : α → Str × Value → Option α) (x : α) : Value → Option α
  | .null => some x
  | .object fields => fields.foldlM store x
  | _ => none

def RoundTicket.store (t : RoundTicket) : Str × Value → Option RoundTicket
  | (key, v) =>
    if names key "sender" then (addressOf v).map fun sender => { t with sender }
    else if names key "recipient" then (addressOf v).map fun recipient => { t with recipient }
    else if names key "roundId" then (integerOf v).map fun roundID => { t with roundID }
    else if names key "localIndex" then (integerOf v).map fun localIndex => { t with localIndex }
    else if names key "faceValue" then (integerOf v).map fun faceValue => { t with faceValue }
    else if names key "winProb" then (integerOf v).map fun winProb => { t with winProb }
    else if names key "senderNonce" then
      (integerOf v).map fun senderNonce => { t with senderNonce }
    else some t

def SignedTicket.store (spare : Nat → UInt8) (s : SignedTicket) : Str × Value → Option SignedTicket
  | (key, v) =>
    if names key "ticket" then
      (storeStruct RoundTicket.store s.ticket v).map fun ticket => { s with ticket }
    else if names key "signature" then
      (bytesOf spare v).map fun signature => { s with signature }
    else some s

def unmarshal (spare : Nat → UInt8) (payload : List UInt8) : Option SignedTicket :=
  (parse payload).bind (storeStruct (SignedTicket.store spare)
    ⟨⟨0, 0, none, none, none, none, none⟩, []⟩)

/-- The encoder is not used by a provider. -/
def ticketJson (marshal : SignedTicket → Option (List UInt8)) (spare : Nat → UInt8) :
    ChunkProtocol.Json SignedTicket :=
  ⟨marshal, unmarshal spare⟩

end Cipher.Tickets
