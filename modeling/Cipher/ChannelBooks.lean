import Cipher.ChannelAccounts

/-!
# Payouts and payout engines

The part of a channel contract that its payout engine answers for: what
each channel has paid to its provider, and who may order such payouts.
`exec_books` lists what a transaction can do to these books.
-/

namespace Cipher.PaymentChannel

open Evm Function

structure Books where
  settled : Bytes32 → Nat
  engines : Address → Bool
  owner : Address

def World.books (w : World) : Books :=
  ⟨fun key => (w.channels key).settledAmount, w.authorizedPayoutEngine, w.owner⟩

def Books.pay (b : Books) (key : Bytes32) (amount : Nat) : Books :=
  { b with settled := update b.settled key (b.settled key + amount) }

/-- One change of the books. -/
inductive Booking (d : Deployment) (tx : Tx) : Books → Books → Prop where
  | same (b : Books) : Booking d tx b b
  | authorize {engine : Address} {authorized : Bool}
      (hcall : tx.call = .setPayoutEngine engine authorized) (hauth : tx.msg.sender = b.owner) :
      Booking d tx b { b with engines := update b.engines engine authorized }
  | payout {sender recipient : Address} {amount : Nat}
      (hcall : tx.call = .payoutProvider sender recipient amount)
      (hauth : b.engines tx.msg.sender = true) :
      Booking d tx b (b.pay (getChannelKey d sender recipient) amount)

lemma books_setChannel {w : World} {ch : Channel}
    (h : ch.settledAmount = (w.channels key).settledAmount) :
    (w.setChannel key ch).books = w.books := by
  simp only [World.books, World.setChannel, Books.mk.injEq, and_true]
  funext key'
  by_cases heq : key' = key
  · rw [heq, update_self, h]
  · rw [update_of_ne heq]

lemma books_settle (w : World) (key : Bytes32) (amount : Nat) :
    (w.setChannel key { w.channels key with
      settledAmount := (w.channels key).settledAmount + amount }).books
      = w.books.pay key amount := by
  simp only [World.books, World.setChannel, Books.pay, Books.mk.injEq, and_true]
  funext key'
  by_cases heq : key' = key
  · rw [heq, update_self, update_self]
  · rw [update_of_ne heq, update_of_ne heq]

/-- **What a transaction can do to the books.** -/
theorem exec_books (d : Deployment) (tx : Tx) (w : World) :
    (exec d tx w).Own (fun w w' => Booking d tx w.books w'.books) w := by
  have hframe : ∀ w w' : World, w'.books = w.books → Booking d tx w.books w'.books := by
    intro w w' h
    rw [h]
    exact .same _
  refine .guard fun _ => ?_
  generalize hcall : tx.call = call
  cases call with
  | setPayoutEngine engine authorized =>
    exact .guard fun howner => .authorize hcall (not_not.mp howner)
  | pause =>
    exact .guard fun _ => .guard fun _ => hframe w _ rfl
  | unpause =>
    exact .guard fun _ => .guard fun _ => hframe w _ rfl
  | openChannel recipient | depositToChannel recipient =>
    refine (deposit_checks ..).own fun _ => ?_
    exact hframe w _ (books_setChannel rfl)
  | initiateChannelUnlock recipient =>
    refine (initiateChannelUnlock_checks d tx.msg _ recipient).own fun _ => ?_
    exact hframe w _ (books_setChannel rfl)
  | withdrawChannel recipient =>
    refine (withdrawChannel_checks ..).own fun _ => ?_
    refine ⟨hframe w _ (books_setChannel rfl), hframe w _ (books_setChannel rfl), fun sent w' => ?_⟩
    exact .guard fun _ => hframe w' _ rfl
  | payoutProvider sender recipient amount =>
    refine (payoutProvider_checks ..).own ?_
    intro hpayable
    have hpay : Booking d tx w.books
        ((w.credit tx.msg.value).paid d sender recipient amount).books := by
      rw [World.paid, books_settle]
      exact .payout hcall hpayable.authorized
    refine ⟨hpay, hpay, fun sent w' => ?_⟩
    exact .guard fun _ => hframe w' _ rfl

end Cipher.PaymentChannel
