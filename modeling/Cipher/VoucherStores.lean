import Cipher.Vouchers

/-!
# The coordinator's stores

A coordinator keeps the latest voucher of each escrow agreement, and a
dispatcher keeps its counters for each availability contract. What the two
have to do with each other goes through the vouchers that were handed out:
`vouchersFor key evs` are those that name the agreement `key`, whichever
contract they are for and whether a dispatch or the coordinator's own method
made them.

`Effect` says once what an operation does to the coordinator. Along every
trace the store holds the head of `vouchersFor`, and each voucher supersedes
those before it (`trace_stored`).
-/

namespace Cipher.Payment

open Evm Go Function List Option

/-! ## Vouchers handed out -/

/-- The voucher that an event hands out, for whichever contract. -/
def voucherIn (e : Event) : Option PaymentState :=
  match e.op, e.reply with
  | .dispatchAvailabilityResult _ result, .dispatched (.ok out) =>
    if result.result = .pass then some out.paymentState else none
  | .createAndSignPaymentState .., .signed (.ok signed) => some signed
  | _, _ => none

/-- The vouchers that name an escrow agreement, newest first. -/
def vouchersFor (key : Str) (evs : List Event) : List PaymentState :=
  (evs.filterMap voucherIn).filter fun v => v.contractID = key

/-- The voucher that is kept for an agreement. -/
def PublisherCoordinator.latest (c : PublisherCoordinator) (key : Str) : Option PaymentState :=
  (c.stores key).bind fun store => if store.hasState then some store.latest else none

/-- The clock, the signer and the result of an operation that signs. -/
def Op.input : Op → Option (Env × AvailabilityResult)
  | .dispatchAvailabilityResult env result => some (env, result)
  | .createAndSignPaymentState env result _ _ => some (env, result)
  | _ => none

/-- What is the case when a voucher is signed. -/
structure Signed (env : Env) (result : AvailabilityResult) (cum seq : UInt64)
    (c : PublisherCoordinator) (escrow : Bytes32) (provider : Address) (signed : PaymentState) :
    Prop where
  contract : c.bindings.contracts result.contractID = some escrow
  peer : c.bindings.providers result.providerID = some provider
  fresh : ∀ v, c.latest (escrowString escrow) = some v →
    v.sequence < seq ∧ v.cumulativePayment ≤ cum
  sign : env.sign (unsignedState env result cum seq c escrow provider) = .ok signed

/-- What an operation does to the coordinator, and the voucher it hands out. -/
inductive Effect (op : Op) (c : PublisherCoordinator) :
    Option PaymentState → PublisherCoordinator → Prop where
  | none : Effect op c none c
  | ttl (hop : op = .setPaymentStateTTL ttl) (hpos : 0 < ttl) :
      Effect op c none { c with paymentStateTTL := ttl }
  | provider (hcontracts : bindings.contracts = c.bindings.contracts) :
      Effect op c none { c with bindings }
  | contract {cid : Str} {escrow : Bytes32} {bindings : Registry} (hcid : cid ≠ [])
      (hcontracts : bindings.contracts = update c.bindings.contracts cid (some escrow)) :
      Effect op c none { c with
        bindings
        stores := update c.stores (escrowString escrow)
          (some ((c.stores (escrowString escrow)).getD PaymentStateStore.zero)) }
  | sign (hop : op.input = some (env, result))
      (hsigned : Signed env result cum seq c escrow provider signed) :
      Effect op c (some signed) { c with
        stores := update c.stores (escrowString escrow) (some ⟨signed, true⟩) }

/-! ## What the operations do -/

variable {c : PublisherCoordinator} {evs : List Event}

/-- The store refuses what is not newer. -/
lemma latest_fresh
    (hstore : c.stores key = some store) (h : ¬(store.hasState ∧ (seq ≤ store.latest.sequence
      ∨ cum < store.latest.cumulativePayment))) :
    ∀ v, c.latest key = some v → v.sequence < seq ∧ v.cumulativePayment ≤ cum := by
  intro v hv
  rw [PublisherCoordinator.latest, hstore, bind_some] at hv
  split at hv
  · rename_i hstate
    cases hv
    simp only [hstate, true_and, not_or, UInt64.not_le, UInt64.not_lt] at h
    exact h
  · cases hv

lemma storePaymentState_ok
    (h : storePaymentState store state = .ok store') : store' = ⟨state, true⟩ := by
  unfold storePaymentState at h
  split at h
  · cases h
  split at h
  · cases h
  · exact (Except.ok.inj h).symm

/-- The coordinator keeps what it signs. -/
lemma createAndSign_signed (h : createAndSignPaymentState env result cum seq c = (.ok signed, c')) :
    ∃ escrow provider, Signed env result cum seq c escrow provider signed
      ∧ c' = { c with
        stores := update c.stores (escrowString escrow) (some ⟨signed, true⟩) } := by
  unfold createAndSignPaymentState at h
  split at h
  · cases h
  split at h
  · cases h
  split at h
  · cases h
  rename_i escrow hescrow
  split at h
  · cases h
  rename_i provider hprovider
  dsimp only at h
  split at h
  · cases h
  rename_i store hstore
  split at h
  · cases h
  rename_i hstale
  split at h
  · cases h
  rename_i state hcreate
  obtain rfl := createPaymentState_ok hcreate
  split at h
  · cases h
  rename_i signed' hsign
  split at h
  · cases h
  rename_i store' hput
  cases h
  rw [storePaymentState_ok hput]
  exact ⟨escrow, provider, ⟨hescrow, hprovider, latest_fresh hstore hstale, hsign⟩, rfl⟩

lemma createAndSign_effect (op : Op)
    (hop : op.input = some (env, result)) (cum seq : UInt64) (c : PublisherCoordinator) :
    Effect op c (createAndSignPaymentState env result cum seq c).1.toOption
      (createAndSignPaymentState env result cum seq c).2 := by
  cases hsign : createAndSignPaymentState env result cum seq c with
  | mk reply c' =>
    cases reply with
    | error e =>
      rw [createAndSign_error hsign]
      exact .none
    | ok signed =>
      obtain ⟨escrow, provider, hsigned, rfl⟩ := createAndSign_signed hsign
      exact .sign hop hsigned

lemma bindContract_contracts (h : bindContract r cid escrow = .ok r') :
    cid ≠ [] ∧ r'.contracts = update r.contracts cid (some escrow) := by
  unfold bindContract at h
  split at h
  · cases h
  rename_i hids
  refine ⟨fun hcid => hids (.inl hcid), ?_⟩
  split at h
  · rename_i existing hold
    split at h
    · cases h
    · rename_i hsame
      cases h
      rw [not_not.mp hsame] at hold
      rw [← hold, update_eq_self]
  · cases h
    rfl

lemma registerContract_effect (op : Op) (cid : Str) (escrow : Bytes32)
    (c : PublisherCoordinator) : Effect op c none (registerContract cid escrow c).2 := by
  unfold registerContract
  split
  · exact .none
  · rename_i bindings hbind
    dsimp only
    have heffect : Effect op c none { c with
        bindings
        stores := update c.stores (escrowString escrow)
          (some ((c.stores (escrowString escrow)).getD PaymentStateStore.zero)) } :=
      .contract (bindContract_contracts hbind).1 (bindContract_contracts hbind).2
    split
    · -- The store is there already, and stays.
      rename_i store hstore
      rw [hstore, getD_some, ← hstore, update_eq_self] at heffect
      exact heffect
    · rename_i hmissing
      rw [hmissing] at heffect
      exact heffect

lemma registerContractSchedule_effect (op : Op) (cid : Str) (escrow : Bytes32)
    (perPass max : UInt64) (d : Dispatcher) :
    Effect op d.coordinator none
      (registerContractSchedule cid escrow perPass max d).2.coordinator := by
  have heffect := registerContract_effect op cid escrow d.coordinator
  unfold registerContractSchedule
  split_ifs
  · exact .none
  · exact .none
  · exact .none
  · split
    · exact .none
    · split <;> rename_i hreg <;> rw [hreg] at heffect <;> exact heffect

/-- **Every operation has one of these effects on the coordinator.** -/
theorem effect_of_step (cr : Crypto) (op : Op) (d : Dispatcher) :
    Effect op d.coordinator (voucherIn ⟨op, d, (step cr op d).1⟩) (step cr op d).2.coordinator := by
  cases op with
  | registerContractSchedule cid escrow perPass max =>
    exact registerContractSchedule_effect ..
  | dispatchAvailabilityResult env result =>
    simp only [step]
    have hmoves := dispatch_moves cr env result d
    generalize dispatchAvailabilityResult cr env result d = r at hmoves
    cases hmoves with
    | error e => exact .none
    | @advance s s' out coordinator hs hadvance hcoordinator =>
      simp only [voucherIn, Dispatcher.setSchedule]
      rcases hcoordinator with ⟨hfail, rfl⟩ | ⟨hpass, hsign⟩
      · rw [if_neg (by simp [hfail])]
        exact .none
      · have heffect := createAndSign_effect (.dispatchAvailabilityResult env result) rfl
          (nextCumulativePayment s) (s.sequence + 1) d.coordinator
        rw [hsign] at heffect
        rw [if_pos hpass]
        exact heffect
  | registerProvider peer address =>
    show Effect _ d.coordinator none (registerProvider peer address d.coordinator).2
    unfold registerProvider
    split
    · exact .none
    · rename_i bindings hbind
      exact .provider (bindProvider_ok hbind).1
  | registerContract cid escrow => exact registerContract_effect ..
  | setPaymentStateTTL ttl =>
    show Effect _ d.coordinator none (setPaymentStateTTL ttl d.coordinator).2
    unfold setPaymentStateTTL
    split
    · exact .none
    · rename_i hpos
      exact .ttl rfl (Int.not_le.mp hpos)
  | createAndSignPaymentState env result cum seq =>
    have heffect := createAndSign_effect (.createAndSignPaymentState env result cum seq) rfl
      cum seq d.coordinator
    simp only [step, onCoordinator]
    generalize createAndSignPaymentState env result cum seq d.coordinator = r at heffect
    obtain ⟨r | signed, coordinator⟩ := r
    · exact heffect
    · exact heffect

/-! ## Along a trace -/

/-- A voucher that was handed out was signed in the state of its event. -/
lemma voucher_signed (ht : Trace cr d₀ evs d) (he : e ∈ evs) (hv : voucherIn e = some v) :
    ∃ env result cum seq escrow provider, e.op.input = some (env, result)
      ∧ Signed env result cum seq e.before.coordinator escrow provider v := by
  obtain ⟨post, pre, rfl⟩ := append_of_mem he
  obtain ⟨-, hreply⟩ := ht.split
  have heffect := effect_of_step cr e.op e.before
  rw [← hreply, hv] at heffect
  generalize (step cr e.op e.before).2.coordinator = c' at heffect
  cases heffect with
  | sign hop hsigned => exact ⟨_, _, _, _, _, _, hop, hsigned⟩

/-- The lifetime of vouchers is what it was, if nobody sets it. -/
lemma trace_ttl (ht : Trace cr d₀ evs d)
    (hunset : ∀ e ∈ evs, ∀ ttl, e.op ≠ .setPaymentStateTTL ttl) :
    d.coordinator.paymentStateTTL = d₀.coordinator.paymentStateTTL := by
  refine ht.inv (I := fun evs d => (∀ e ∈ evs, ∀ ttl, e.op ≠ .setPaymentStateTTL ttl) →
    d.coordinator.paymentStateTTL = d₀.coordinator.paymentStateTTL) (fun _ => rfl)
    (fun evs d op ih hunset => ?_) hunset
  rw [forall_mem_cons] at hunset
  have hsame := ih hunset.2
  have heffect := effect_of_step cr op d
  generalize (step cr op d).2.coordinator = c' at heffect ⊢
  generalize voucherIn ⟨op, d, (step cr op d).1⟩ = voucher at heffect
  cases heffect with
  | ttl hop => exact absurd hop (hunset.1 _)
  | none | provider | contract | sign => exact hsame

/-- The vouchers of this event come from a signer that only signs. -/
def SignedOnly (e : Event) : Prop :=
  ∀ env result, e.op.input = some (env, result) → OnlySigns env.sign

/-- The coordinator can sign, every bound contract has a store, and the stores
hold the latest of the vouchers. -/
structure Stored (evs : List Event) (c : PublisherCoordinator) : Prop where
  ttl : 0 < c.paymentStateTTL
  publisher : c.publisherID ≠ []
  named : c.bindings.contracts [] = none
  store : ∀ cid escrow, c.bindings.contracts cid = some escrow →
    ∃ store, c.stores (escrowString escrow) = some store
  latest : ∀ key, c.latest key = (vouchersFor key evs).head?
  ordered : ∀ key, (vouchersFor key evs).Pairwise Supersedes

section Stored

lemma vouchersFor_cons (key : Str) (e : Event) (evs : List Event) : vouchersFor key (e :: evs)
      = (voucherIn e).toList.filter (fun v => v.contractID = key) ++ vouchersFor key evs := by
  unfold vouchersFor
  rw [filterMap_cons]
  cases voucherIn e with
  | none => rfl
  | some v => exact filter_append [v] _

lemma latest_update (c : PublisherCoordinator) (key key' : Str) (store : PaymentStateStore) :
    PublisherCoordinator.latest { c with stores := update c.stores key (some store) } key'
      = if key' = key then if store.hasState then some store.latest else none
        else c.latest key' := by
  unfold PublisherCoordinator.latest
  by_cases hkey : key' = key
  · simp [hkey]
  · simp [hkey]

/-- A store that is made empty where there was none changes nothing. -/
lemma latest_getD (c : PublisherCoordinator) (bindings : Registry) (key key' : Str) :
    PublisherCoordinator.latest { c with
      bindings
      stores := update c.stores key
        (some ((c.stores key).getD PaymentStateStore.zero)) } key' = c.latest key' := by
  refine (latest_update ..).trans ?_
  split
  · rename_i hkey
    rw [hkey, PublisherCoordinator.latest]
    cases c.stores key <;> rfl
  · rfl

/-- A voucher that is newer than the latest supersedes them all. -/
lemma Stored.supersedes (h : Stored evs c) {signed : PaymentState}
    (hfresh : ∀ v, c.latest key = some v →
      v.sequence < signed.sequence ∧ v.cumulativePayment ≤ signed.cumulativePayment) :
    ∀ v ∈ vouchersFor key evs, Supersedes signed v := by
  intro v hv
  have hlatest := h.latest key
  have hordered := h.ordered key
  cases hall : vouchersFor key evs with
  | nil =>
    rw [hall] at hv
    cases hv
  | cons last rest =>
    rw [hall] at hv hlatest hordered
    obtain ⟨hseq, hcum⟩ := hfresh last hlatest
    rcases mem_cons.mp hv with rfl | hv
    · exact ⟨hseq, hcum⟩
    · obtain ⟨hseq', hcum'⟩ := (pairwise_cons.mp hordered).1 v hv
      exact ⟨hseq'.trans hseq, hcum'.trans hcum⟩

/-- An operation that hands out no voucher. -/
lemma Stored.silent (h : Stored evs c) (hvoucher : voucherIn e = none)
    (httl : 0 < c'.paymentStateTTL) (hpublisher : c'.publisherID = c.publisherID)
    (hnamed : c'.bindings.contracts [] = none)
    (hstore : ∀ cid escrow, c'.bindings.contracts cid = some escrow →
      ∃ store, c'.stores (escrowString escrow) = some store)
    (hlatest : ∀ key, c'.latest key = c.latest key) : Stored (e :: evs) c' := by
  have hsame (key : Str) : vouchersFor key (e :: evs) = vouchersFor key evs := by
    rw [vouchersFor_cons, hvoucher]
    rfl
  refine ⟨httl, hpublisher ▸ h.publisher, hnamed, hstore, fun key => ?_, fun key => ?_⟩
  · rw [hsame, hlatest]
    exact h.latest key
  · rw [hsame]
    exact h.ordered key

lemma Stored.step (h : Stored evs c) (hsigns : SignedOnly e)
    (heffect : Effect e.op c (voucherIn e) c') : Stored (e :: evs) c' := by
  generalize hvoucher : voucherIn e = voucher at heffect
  cases heffect with
  | none => exact h.silent hvoucher h.ttl rfl h.named h.store fun _ => rfl
  | ttl hop hpos => exact h.silent hvoucher hpos rfl h.named h.store fun _ => rfl
  | provider hcontracts =>
    have hnamed : _ = none := (congrFun hcontracts []).trans h.named
    refine h.silent hvoucher h.ttl rfl hnamed (fun cid escrow hbound => ?_) fun _ => rfl
    exact h.store cid escrow (hcontracts ▸ hbound)
  | @contract cid escrow bindings hcid hcontracts =>
    have hnamed : bindings.contracts [] = none := by
      rw [hcontracts, update_of_ne hcid.symm]
      exact h.named
    refine h.silent hvoucher h.ttl rfl hnamed (fun cid' escrow' hbound => ?_) (latest_getD c _ _)
    dsimp only at hbound ⊢
    by_cases hkey : escrowString escrow' = escrowString escrow
    · rw [hkey, update_self]
      exact ⟨_, rfl⟩
    · rw [update_of_ne hkey]
      rw [hcontracts, update_apply] at hbound
      split at hbound
      · cases hbound
        exact absurd rfl hkey
      · exact h.store cid' escrow' hbound
  | @sign env result cum seq escrow provider signed hop hsigned =>
    obtain ⟨signature, rfl⟩ := hsigns _ _ hop _ _ hsigned.sign
    refine ⟨h.ttl, h.publisher, h.named, fun cid' escrow' hbound => ?_, fun key => ?_,
      fun key => ?_⟩
    · dsimp only at hbound ⊢
      rw [update_apply]
      split
      · exact ⟨_, rfl⟩
      · exact h.store cid' escrow' hbound
    · rw [latest_update, vouchersFor_cons, hvoucher]
      by_cases hkey : key = escrowString escrow
      · simp [hkey, unsignedState]
      · simp [hkey, Ne.symm hkey, unsignedState, h.latest key]
    · rw [vouchersFor_cons, hvoucher]
      by_cases hkey : key = escrowString escrow
      · subst hkey
        simpa [unsignedState, h.ordered] using h.supersedes hsigned.fresh
      · simpa [Ne.symm hkey, unsignedState] using h.ordered key

end Stored

lemma stored_new (h : newPublisherCoordinator publisherID = .ok c) : Stored [] c := by
  unfold newPublisherCoordinator at h
  split at h
  · cases h
  · rename_i hpublisher
    cases h
    have httl : (0 : Int) < 24 * 3600 * 1000000000 := by decide
    exact ⟨httl, hpublisher, rfl, nofun, fun _ => rfl, fun _ => .nil⟩

/-- **The stores hold the latest voucher of every agreement.** -/
theorem trace_stored (hinit : Stored [] d₀.coordinator) (ht : Trace cr d₀ evs d)
    (hsigns : ∀ e ∈ evs, SignedOnly e) : Stored evs d.coordinator := by
  refine ht.inv (I := fun evs d => (∀ e ∈ evs, SignedOnly e) → Stored evs d.coordinator)
    (fun _ => hinit) (fun evs d op h hsigns => ?_) hsigns
  rw [forall_mem_cons] at hsigns
  exact (h hsigns.2).step hsigns.1 (effect_of_step ..)

end Cipher.Payment
