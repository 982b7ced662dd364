import Cipher.DisputedRounds

/-!
# Parameters that the owner can set

`ProtocolConfig` has three parameters, and constants with the values that they
start with. The other contracts read the constants, so what the owner sets has
an effect only if it is what the constants are (`parameters_effective_iff`).
-/

namespace Cipher.Settlement

open Evm

/-- The parameters, with the owner that `Ownable` keeps. -/
structure ProtocolConfig where
  owner : Address
  disputeWindow : Nat
  roundStaleTimeout : Nat
  slashBps : Nat

namespace ProtocolConfig

inductive Error where
  | ownableUnauthorizedAccount (account : Address)
  | require (message : String)

def new (initialOwner : Address) : ProtocolConfig :=
  ⟨initialOwner, disputeResponseWindow, Settlement.roundStaleTimeout, Settlement.slashBps⟩

def setParameters (m : Msg) (disputeWindow roundStaleTimeout slashBps : Nat)
    (c : ProtocolConfig) : Except Error ProtocolConfig :=
  if m.sender ≠ c.owner then .error (.ownableUnauthorizedAccount m.sender)
  else if ¬ slashBps ≤ 10000 then .error (.require "ProtocolConfig: Slash BPS exceeds 100%")
  else if ¬ disputeWindow > 0 then .error (.require "ProtocolConfig: Invalid dispute window")
  else if ¬ roundStaleTimeout > 0 then .error (.require "ProtocolConfig: Invalid stale timeout")
  else .ok { c with disputeWindow, roundStaleTimeout, slashBps }

end ProtocolConfig

/-- The contracts go by these values in a world `w`. -/
structure EffectiveIn (d : Deployment) (w : World)
    (disputeWindow roundStaleTimeout slashBps : Nat) : Prop where
  raised : ∀ m recipient roundId localIndex evidenceHash w',
    raiseChunkDispute d m recipient roundId localIndex evidenceHash w = .done w' →
      (w'.resolver.disputes
        (disputeKey d ⟨⟨m.sender, recipient, roundId⟩, localIndex⟩)).deadlineBlock
          = m.number + disputeWindow
  marked : ∀ m sender roundId, m.number < 2 ^ 256 → w.engine.paused = false →
    let round := w.engine.rounds (roundKey d ⟨sender, m.sender, roundId⟩)
    round.status = .opened →
      PaymentChannel.isUnlockInitiated d.channels sender m.sender w.channel.toStorage = false →
      ((∃ w', markRoundPartial d m sender roundId w = .done w') ↔
        round.commitBlock + roundStaleTimeout < m.number)
  slashed : ∀ m sender recipient roundId localIndex w',
    resolveExpiredDispute d m sender recipient roundId localIndex w = .done w' →
      (w'.registry.providers recipient).stake = (w.registry.providers recipient).stake -
        (w.registry.providers recipient).stake * slashBps / 10000

/-- The contracts go by the parameters in every run. -/
def ProtocolConfig.Effective (c : ProtocolConfig) : Prop :=
  ∀ d owner x, Run (exec d) (fun _ _ => True) (start owner) x →
    EffectiveIn d x.now.state c.disputeWindow c.roundStaleTimeout c.slashBps

lemma slashProvider_stake {m : Msg} {provider : Address} {amount slashedAmount : Nat}
    {reasonId : Bytes32} {r r' : ProviderRegistry.World}
    (h : ProviderRegistry.slashProvider m provider amount reasonId r = .ok (slashedAmount, r')) :
    (r'.providers provider).stake = (r.providers provider).stake - amount := by
  unfold ProviderRegistry.slashProvider at h
  dsimp only at h
  split at h
  · cases h
  split at h
  · rename_i hzero
    cases h
    rw [hzero, Nat.zero_sub]
  cases h
  refine (congrArg ProviderRegistry.Provider.stake (Function.update_self ..)).trans ?_
  simp only [ProviderRegistry.Provider.reduce]
  split <;> omega

lemma effectiveIn_constants (d : Deployment) (w : World) :
    EffectiveIn d w disputeResponseWindow roundStaleTimeout slashBps where
  raised := by
    intro m recipient roundId localIndex evidenceHash w' h
    unfold raiseChunkDispute at h
    dsimp only at h
    split at h
    · cases h
    split at h
    · cases h
    split at h
    · cases h
    rename_i deadline hdeadline
    split at h
    · cases h
    cases h
    obtain ⟨-, rfl⟩ := add256_eq_some.mp hdeadline
    exact congrArg Dispute.deadlineBlock (if_pos rfl)
  marked := by
    intro m sender roundId hnumber hpaused round hopen hlocked
    unfold markRoundPartial whenNotPaused
    dsimp only
    rw [hpaused, if_neg Bool.false_ne_true, if_neg (not_not.mpr hopen), hlocked]
    split
    · rename_i hpanic
      refine iff_of_false nofun fun hlate => ?_
      rw [add256_of_lt (hlate.trans hnumber)] at hpanic
      cases hpanic
    · rename_i staleAfter hstale
      obtain ⟨-, rfl⟩ := add256_eq_some.mp hstale
      split
      · rename_i hearly
        exact iff_of_false nofun hearly.2
      · rename_i hlate
        exact iff_of_true ⟨_, rfl⟩ (not_not.mp fun hnot => hlate ⟨rfl, hnot⟩)
  slashed := by
    intro m sender recipient roundId localIndex w' h
    unfold resolveExpiredDispute at h
    dsimp only at h
    split at h
    · cases h
    split at h
    · cases h
    split at h
    · cases h
    rename_i product hproduct
    obtain ⟨-, hproduct⟩ := Option.ite_none_right_eq_some.mp hproduct
    cases hproduct
    split at h
    · cases h
    rename_i slashedAmount registry hslash
    unfold voidRound onlyDisputeResolver at h
    split at h
    · cases h
    cases h
    exact slashProvider_stake hslash

def register (stake : Nat) : Tx := { msg := ⟨2, stake, 0, 95⟩, call := .registry .registerProvider }

/-- Provider 2 has a stake, and a round that client 1 disputes. -/
def stakedDispute : List Tx := wiring ++ register (10 ^ 18) :: lostDispute.take 2

set_option maxRecDepth 8192 in
/-- A world in which each of the three parameters matters. -/
lemma exists_disputed : ∃ x, Run (exec sample) (fun _ _ => True) (start 9) x
    ∧ (∃ w', raiseChunkDispute sample ⟨1, 0, 0, 111⟩ 2 3 1 88 x.now.state = .done w')
    ∧ (∃ w', resolveExpiredDispute sample ⟨5, 0, 0, 1311⟩ 1 2 3 0 x.now.state = .done w')
    ∧ (x.now.state.registry.providers 2).stake = 10 ^ 18 ∧ x.now.state.engine.paused = false
    ∧ (x.now.state.engine.rounds (roundKey sample ⟨1, 2, 3⟩)).status = .opened
    ∧ (x.now.state.engine.rounds (roundKey sample ⟨1, 2, 3⟩)).commitBlock = 100
    ∧ PaymentChannel.isUnlockInitiated sample.channels 1 2 x.now.state.channel.toStorage
      = false := by
  exact ⟨_, .of_accepted stakedDispute rfl, ⟨_, rfl⟩, ⟨_, rfl⟩, rfl, rfl, rfl, rfl, rfl⟩

lemma ProtocolConfig.constants_of_effective {c : ProtocolConfig} (h : c.Effective) :
    c.disputeWindow = disputeResponseWindow ∧ c.roundStaleTimeout = Settlement.roundStaleTimeout
      ∧ c.slashBps = Settlement.slashBps := by
  obtain ⟨x, hrun, ⟨_, hraise⟩, ⟨_, hresolve⟩, hstake, hpaused, hopen, hcommit, hlocked⟩ :=
    exists_disputed
  have hset := h _ _ _ hrun
  have hused := effectiveIn_constants sample x.now.state
  have hraised := (hused.raised _ _ _ _ _ _ hraise).symm.trans (hset.raised _ _ _ _ _ _ hraise)
  have hslashed :=
    (hused.slashed _ _ _ _ _ _ hresolve).symm.trans (hset.slashed _ _ _ _ _ _ hresolve)
  -- the first block at which the round can be marked tells the two timeouts apart
  have hmarked : ∀ n < 2 ^ 256,
      (100 + Settlement.roundStaleTimeout < n ↔ 100 + c.roundStaleTimeout < n) := by
    intro n hn
    rw [← hcommit]
    exact (hused.marked ⟨2, 0, 0, n⟩ 1 3 hn hpaused hopen hlocked).symm.trans
      (hset.marked ⟨2, 0, 0, n⟩ 1 3 hn hpaused hopen hlocked)
  have hearly := hmarked (100 + Settlement.roundStaleTimeout) (by decide)
  have hlate := hmarked (101 + Settlement.roundStaleTimeout) (by decide)
  rw [hstake] at hslashed
  simp only [disputeResponseWindow, Settlement.roundStaleTimeout, Settlement.slashBps] at *
  omega

/-- **Configured parameters take effect** exactly if they are set to the values
of the constants. -/
theorem parameters_effective_iff (c c' : ProtocolConfig) (m : Msg) (window timeout bps : Nat)
    (hset : c.setParameters m window timeout bps = .ok c') :
    c'.Effective ↔
      window = disputeResponseWindow ∧ timeout = roundStaleTimeout ∧ bps = slashBps := by
  unfold ProtocolConfig.setParameters at hset
  split_ifs at hset
  cases hset
  constructor
  · exact ProtocolConfig.constants_of_effective
  · rintro ⟨rfl, rfl, rfl⟩ d owner x -
    exact effectiveIn_constants d x.now.state

theorem parameters_effective_initial :
    (ProtocolConfig.new 9).setParameters ⟨9, 0, 0, 1⟩ 1200 3600 2000 = .ok (.new 9)
      ∧ (ProtocolConfig.new 9).Effective :=
  ⟨rfl, (parameters_effective_iff (.new 9) _ ⟨9, 0, 0, 1⟩ 1200 3600 2000 rfl).mpr ⟨rfl, rfl, rfl⟩⟩

set_option maxRecDepth 8192 in
/-- The owner asks for 50 blocks, and a dispute raised afterwards gets 1200. -/
theorem parameters_ignored :
    (∃ c, (ProtocolConfig.new 9).setParameters ⟨9, 0, 0, 92⟩ 50 3600 2000 = .ok c
      ∧ c.disputeWindow = 50)
    ∧ ∃ x, Run (exec sample) (fun _ _ => True) (start 9) x
      ∧ x.now.past.map (·.1.call) = (raisedDispute.map (·.call)).reverse
      ∧ (x.now.state.resolver.disputes (disputeKey sample sampleSlot)).deadlineBlock
        = 110 + 1200 := by
  exact ⟨⟨_, rfl, rfl⟩, _, .of_accepted raisedDispute rfl, rfl, rfl⟩

end Cipher.Settlement
