import CkbController.Lib.Allowance
import CkbController.Lib.Trace
import CkbController.Ckb.Encoding
import CkbController.Sdk.Channel

/-!
# The accounts of a channel session

The session and the rail each keep a ledger of the same channel. Both are accounts of one
`Allowance`: the session books `budget` and `spent` (`ChannelSession.Tracks`), the in-memory rail
what is left and what the counterparty earned (`MockChannel.Tracks`). A payment spends from the
allowance on both sides or on none, so the two ledgers stay in step over every run.

`Step` is one call on a live session. Every call but `close` leaves a session; `close` consumes it,
whatever it returns.
-/

namespace CkbController.Sdk

open ByteCodec MachineInt

/-! ## Runs -/

/-- A call together with what it returned. -/
inductive Event (ε : Type) where
  | openChannel (peer : PeerId) (budget : U64) (result : Except (ChannelError ε) ChannelTx)
  | pay (amount : U128) (result : Except (ChannelError ε) Unit)
  | close (result : Except (ChannelError ε) (Settlement × ChannelTx))

section

variable {ρ χ ε : Type}

/-- One call that returns. `none` is a session that has been consumed. -/
inductive Step (P : Platform) (R : FiberRail ρ χ ε) :
    Option (ChannelSession ρ χ) → Event ε → Option (ChannelSession ρ χ) → Prop where
  | openChannel {s s' : ChannelSession ρ χ} {peer : PeerId} {budget : U64}
      {result : Except (ChannelError ε) ChannelTx}
      (call : s.openChannel P R peer budget = some (result, s')) :
      Step P R (some s) (.openChannel peer budget result) (some s')
  | pay {s s' : ChannelSession ρ χ} {amount : U128} {result : Except (ChannelError ε) Unit}
      (call : s.pay R amount = some (result, s')) :
      Step P R (some s) (.pay amount result) (some s')
  | close {s taken : ChannelSession ρ χ}
      {result : Except (ChannelError ε) (Settlement × ChannelTx)}
      (call : s.close R = some (result, taken)) : Step P R (some s) (.close result) none

/-- The amounts of the payments that returned `Ok` since the channel was opened. -/
def paidSinceOpen (events : List (Event ε)) : Nat :=
  events.foldl (fun paid event =>
    match event with
    | .openChannel _ _ (.ok _) => 0
    | .pay amount (.ok _) => paid + amount.toNat
    | _ => paid) 0

/-- The budget the channel was opened with. -/
def openedWith (events : List (Event ε)) : Nat :=
  events.foldl (fun budget event =>
    match event with
    | .openChannel _ opened (.ok _) => opened.toNat
    | _ => budget) 0

/-! ## What one call does -/

namespace ChannelSession

variable {P : Platform} {R : FiberRail ρ χ ε} {s s' : ChannelSession ρ χ}

/-- All a session keeps besides the rail. -/
structure SameBooks (s s' : ChannelSession ρ χ) : Prop where
  cfg : s'.cfg = s.cfg
  channel : s'.channel = s.channel
  funding : s'.funding = s.funding
  budget : s'.budget = s.budget
  spent : s'.spent = s.spent

theorem SameBooks.refl (s : ChannelSession ρ χ) : s.SameBooks s := ⟨rfl, rfl, rfl, rfl, rfl⟩

/-- **The ways `open_channel` goes**: already open, refused by the rail, opened. -/
theorem openChannel_cases {peer : PeerId} {budget : U64}
    {result : Except (ChannelError ε) ChannelTx}
    (h : s.openChannel P R peer budget = some (result, s')) :
    (s.channel.isSome ∧ result = .error .alreadyOpen ∧ s' = s) ∨
    (∃ e rail, s.channel = none ∧ result = .error (.rail e) ∧ s' = { s with rail } ∧
      R.openChannel peer (budget.setWidth 128) ((buildFundingTx s.cfg budget).outpoint P) s.rail =
        some (.error e, rail)) ∨
    (∃ id rail, s.channel = none ∧ result = .ok (buildFundingTx s.cfg budget) ∧
      s' = { s with rail, channel := some id, budget := budget.setWidth 128, spent := 0,
                    funding := some ((buildFundingTx s.cfg budget).outpoint P) } ∧
      R.openChannel peer (budget.setWidth 128) ((buildFundingTx s.cfg budget).outpoint P) s.rail =
        some (.ok id, rail)) := by
  unfold openChannel at h
  by_cases hopen : s.channel.isSome
  · rw [if_pos hopen] at h
    cases h
    exact Or.inl ⟨hopen, rfl, rfl⟩
  · have hnone : s.channel = none := by simpa using hopen
    rw [if_neg hopen] at h
    obtain ⟨⟨answer, rail⟩, hrail, h⟩ := Option.bind_eq_some_iff.mp h
    cases answer with
    | error e =>
      cases h
      exact Or.inr (Or.inl ⟨e, rail, hnone, rfl, rfl, hrail⟩)
    | ok id =>
      cases h
      exact Or.inr (Or.inr ⟨id, rail, hnone, rfl, rfl, hrail⟩)

/-- **The ways `pay` goes**: not open, over budget, or left to the rail. -/
theorem pay_cases {amount : U128} {result : Except (ChannelError ε) Unit}
    (h : s.pay R amount = some (result, s')) :
    (s.channel = none ∧ result = .error .notOpen ∧ s' = s) ∨
    (∃ rest, s.remaining = some rest ∧ rest.toNat < amount.toNat ∧
      result = .error (.overBudget rest amount) ∧ s' = s) ∨
    (∃ id rest rail, s.channel = some id ∧ s.remaining = some rest ∧
      amount.toNat ≤ rest.toNat ∧
      ((∃ e, result = .error (.rail e) ∧ s' = { s with rail } ∧
          R.pay id amount s.rail = some (.error e, rail)) ∨
        (∃ spent, result = .ok () ∧ s' = { s with rail, spent } ∧
          R.pay id amount s.rail = some (.ok (), rail) ∧
          checkedAdd s.spent amount = some spent))) := by
  unfold pay at h
  cases hchannel : s.channel with
  | none =>
    rw [hchannel] at h
    cases h
    exact Or.inl ⟨rfl, rfl, rfl⟩
  | some id =>
    rw [hchannel] at h
    obtain ⟨rest, hrest, h⟩ := Option.bind_eq_some_iff.mp h
    by_cases hover : rest.toNat < amount.toNat
    · rw [if_pos hover] at h
      cases h
      exact Or.inr (Or.inl ⟨rest, hrest, hover, rfl, rfl⟩)
    · rw [if_neg hover] at h
      obtain ⟨⟨answer, rail⟩, hrail, h⟩ := Option.bind_eq_some_iff.mp h
      refine Or.inr (Or.inr ⟨id, rest, rail, rfl, hrest, by omega, ?_⟩)
      cases answer with
      | error e =>
        cases h
        exact Or.inl ⟨e, rfl, rfl, hrail⟩
      | ok paid =>
        obtain ⟨spent, hspent, h⟩ := Option.bind_eq_some_iff.mp h
        cases h
        exact Or.inr ⟨spent, rfl, rfl, hrail, hspent⟩

/-- An `open_channel` that fails keeps the books. -/
theorem openChannel_error {peer : PeerId} {budget : U64} {e : ChannelError ε}
    (h : s.openChannel P R peer budget = some (.error e, s')) : s.SameBooks s' := by
  rcases openChannel_cases h with ⟨-, -, rfl⟩ | ⟨_, rail, -, -, rfl, -⟩ | ⟨_, _, -, hok, -⟩
  · exact .refl _
  · exact ⟨rfl, rfl, rfl, rfl, rfl⟩
  · cases hok

/-- A `pay` that fails keeps the books. -/
theorem pay_error {amount : U128} {e : ChannelError ε}
    (h : s.pay R amount = some (.error e, s')) : s.SameBooks s' := by
  rcases pay_cases h with ⟨-, -, rfl⟩ | ⟨_, -, -, -, rfl⟩ | ⟨_, _, rail, -, -, -, hrail⟩
  · exact .refl _
  · exact .refl _
  · rcases hrail with ⟨_, -, rfl, -⟩ | ⟨_, hok, -⟩
    · exact ⟨rfl, rfl, rfl, rfl, rfl⟩
    · cases hok

/-! ## One allowance behind the session -/

/-- The session's ledger of the allowance. -/
def Tracks (s : ChannelSession ρ χ) (a : Allowance) : Prop :=
  s.budget.toNat = a.budget ∧ s.spent.toNat = a.spent

/-- `remaining` never underflows while the session tracks an allowance. -/
theorem Tracks.remaining {a : Allowance} (h : s.Tracks a) :
    ∃ rest, s.remaining = some rest ∧ rest.toNat = a.remaining := by
  obtain ⟨hbudget, hspent⟩ := h
  have hsum := a.spent_add_remaining
  have hle : s.spent.toNat ≤ s.budget.toNat := by omega
  refine ⟨s.budget - s.spent, ?_, ?_⟩
  · unfold ChannelSession.remaining checkedSub
    rw [if_pos hle]
  · rw [BitVec.toNat_sub_of_le hle]
    omega

/-- The same books track the same allowance. -/
theorem Tracks.sameBooks {a : Allowance} (h : s.Tracks a) (hsame : s.SameBooks s') :
    s'.Tracks a := by
  obtain ⟨hbudget, hspent⟩ := h
  refine ⟨?_, ?_⟩
  · rw [hsame.budget, hbudget]
  · rw [hsame.spent, hspent]

/-- What an accepted payment does to the session: it asked for no more than is left, the rail
accepted it, and the allowance is spent. -/
theorem Tracks.pay_ok {a : Allowance} {amount : U128} (h : s.Tracks a)
    (hpay : s.pay R amount = some (.ok (), s')) :
    ∃ id b rail, s.channel = some id ∧ a.spend amount.toNat = some b ∧ s'.Tracks b ∧
      s' = { s with rail, spent := s'.spent } ∧ R.pay id amount s.rail = some (.ok (), rail) := by
  obtain ⟨rest, hrest, hleft⟩ := h.remaining
  rcases pay_cases hpay with ⟨-, herror, -⟩ | ⟨_, -, -, herror, -⟩ | ⟨id, rest', rail, hid, hrest',
    hfits, hrail⟩
  · cases herror
  · cases herror
  rcases hrail with ⟨_, herror, -⟩ | ⟨spent, -, rfl, hrail, hadd⟩
  · cases herror
  obtain rfl : rest = rest' := Option.some.inj (hrest.symm.trans hrest')
  obtain ⟨b, hspend⟩ := Allowance.exists_spend (show amount.toNat ≤ a.remaining by omega)
  obtain ⟨-, hbudget, hspent⟩ := Allowance.spend_eq_some.mp hspend
  have hsum := checkedAdd_eq_some.mp hadd
  refine ⟨id, b, rail, hid, hspend, ⟨h.1.trans hbudget.symm, ?_⟩, rfl, hrail⟩
  show spent.toNat = b.spent
  rw [hspent, ← h.2, hsum]

/-- A call that returns whatever the rail answers panics only where the rail does. -/
theorem eq_none_of_bind {α β : Type} {x : Option α} {k : α → Option β} (hk : ∀ a, k a ≠ none)
    (h : (x >>= k) = none) : x = none := by
  cases x with
  | none => rfl
  | some a => exact absurd h (hk a)

/-- The session's own arithmetic stays in its word: where `pay` panics, the rail did. -/
theorem Tracks.pay_panics {a : Allowance} {amount : U128} (h : s.Tracks a)
    (hpay : s.pay R amount = none) :
    ∃ id, s.channel = some id ∧ amount.toNat ≤ a.remaining ∧ R.pay id amount s.rail = none := by
  obtain ⟨rest, hrest, hleft⟩ := h.remaining
  obtain ⟨hbudget, hspent⟩ := h
  unfold pay at hpay
  cases hchannel : s.channel with
  | none =>
    rw [hchannel] at hpay
    cases hpay
  | some id =>
    rw [hchannel] at hpay
    simp only [hrest, Option.bind_eq_bind, Option.bind_some] at hpay
    by_cases hover : rest.toNat < amount.toNat
    · rw [if_pos hover] at hpay
      cases hpay
    · rw [if_neg hover] at hpay
      -- the sum is at most the budget
      have hroom : s.spent.toNat + amount.toNat < 2 ^ 128 := by
        have := a.spent_add_remaining
        have := s.budget.isLt
        omega
      have hadd : checkedAdd s.spent amount = some (s.spent + amount) := by
        unfold checkedAdd
        rw [if_pos hroom]
      refine ⟨id, rfl, by omega, eq_none_of_bind ?_ hpay⟩
      intro answered hpanic
      obtain ⟨answer, rail⟩ := answered
      cases answer with
      | error e => cases hpanic
      | ok paid =>
        simp only [hadd, Option.bind_some] at hpanic
        cases hpanic

/-- `open_channel` panics only where the rail does. -/
theorem openChannel_panics {peer : PeerId} {budget : U64}
    (h : s.openChannel P R peer budget = none) :
    R.openChannel peer (budget.setWidth 128) ((buildFundingTx s.cfg budget).outpoint P) s.rail =
      none := by
  unfold openChannel at h
  by_cases hopen : s.channel.isSome
  · rw [if_pos hopen] at h
    cases h
  · rw [if_neg hopen] at h
    refine eq_none_of_bind ?_ h
    intro answered hpanic
    obtain ⟨answer, rail⟩ := answered
    cases answer <;> cases hpanic

/-- `close` panics only where the rail does. -/
theorem close_panics (h : s.close R = none) :
    ∃ id, s.channel = some id ∧ R.close id s.rail = none := by
  unfold close at h
  cases hchannel : s.channel with
  | none =>
    rw [hchannel] at h
    cases h
  | some id =>
    cases hfunding : s.funding with
    | none =>
      rw [hchannel, hfunding] at h
      cases h
    | some funding =>
      rw [hchannel, hfunding] at h
      refine ⟨id, rfl, eq_none_of_bind ?_ h⟩
      intro answered hpanic
      obtain ⟨answer, rail⟩ := answered
      cases answer <;> cases hpanic

end ChannelSession

/-! ## What holds after every run -/

section Runs

variable {P : Platform} {R : FiberRail ρ χ ε} {cfg : ChannelConfig} {rail : ρ}
  {events : List (Event ε)} {s : ChannelSession ρ χ}

/-- The session's books are those of an allowance, granted and spent by the calls so far. -/
theorem exists_allowance
    (h : Trace (Step P R) (some (.new cfg rail)) events (some s)) :
    ∃ a : Allowance, s.Tracks a ∧ a.spent = paidSinceOpen events ∧
      a.budget = openedWith events ∧ s.cfg = cfg := by
  have hinv := h.invariant
    (fun events o => ∀ s, o = some s → ∃ a : Allowance, s.Tracks a ∧
      a.spent = paidSinceOpen events ∧ a.budget = openedWith events ∧ s.cfg = cfg)
    ?_ ?_
  · exact hinv s rfl
  · rintro _ ⟨⟩
    exact ⟨.grant 0, ⟨rfl, rfl⟩, rfl, rfl, rfl⟩
  · intro events o event o' ih step s' hs'
    unfold paidSinceOpen openedWith
    rw [List.foldl_append, List.foldl_append]
    cases step with
    | @openChannel s _ peer budget result call =>
      cases hs'
      obtain ⟨a, htracks, hspent, hbudget, hcfg⟩ := ih s rfl
      rcases ChannelSession.openChannel_cases call with ⟨-, rfl, rfl⟩ |
        ⟨e, rail', -, rfl, rfl, -⟩ | ⟨id, rail', -, rfl, rfl, -⟩
      · exact ⟨a, htracks, hspent, hbudget, hcfg⟩
      · exact ⟨a, htracks, hspent, hbudget, hcfg⟩
      · -- a new channel starts a new allowance
        refine ⟨.grant budget.toNat, ⟨?_, rfl⟩, rfl, rfl, hcfg⟩
        show (budget.setWidth 128).toNat = budget.toNat
        exact BitVec.toNat_setWidth_of_le (by decide)
    | @pay s _ amount result call =>
      cases hs'
      obtain ⟨a, htracks, hspent, hbudget, hcfg⟩ := ih s rfl
      cases result with
      | error e =>
        -- a refused payment, by the session or by the rail, is not booked
        have hsame := ChannelSession.pay_error call
        exact ⟨a, htracks.sameBooks hsame, hspent, hbudget, hsame.cfg.trans hcfg⟩
      | ok paid =>
        obtain ⟨id, b, rail', -, hspend, htracks', hs', -⟩ := htracks.pay_ok call
        obtain ⟨-, hsame, hadd⟩ := Allowance.spend_eq_some.mp hspend
        refine ⟨b, htracks', ?_, hsame.trans hbudget, ?_⟩
        · show b.spent = paidSinceOpen events + amount.toNat
          rw [hadd, hspent]
        · rw [hs']
          exact hcfg
    | close call => cases hs'

end Runs

end

/-! ## The in-memory rail -/

/-- The rail's ledger of the allowance. -/
def MockChannel.Tracks (ch : MockChannel) (a : Allowance) : Prop :=
  ch.localBalance.toNat = a.remaining ∧ ch.remoteBalance.toNat = a.spent

/-- A payment within what is left never fails and never overflows. -/
theorem MockRail.pay_tracks {mock : MockRail} {id : U64} {ch : MockChannel} {a b : Allowance}
    {amount : U128} (hch : mock.channels[id.toNat]? = some ch) (htracks : ch.Tracks a)
    (hbudget : a.budget < 2 ^ 128) (hspend : a.spend amount.toNat = some b) :
    ∃ ch', ch'.Tracks b ∧
      MockRail.pay id amount mock = some (.ok (), ⟨mock.channels.set id.toNat ch'⟩) := by
  obtain ⟨hlocal, hremote⟩ := htracks
  obtain ⟨hle, hsame, hadd⟩ := Allowance.spend_eq_some.mp hspend
  have hleft := Allowance.remaining_spend hspend
  have hsum := a.spent_add_remaining
  -- what the allowance has left is the local balance, so neither side overflows
  have hsub : checkedSub ch.localBalance amount = some (ch.localBalance - amount) := by
    unfold checkedSub
    rw [if_pos (by omega)]
  have hroom : checkedAdd ch.remoteBalance amount = some (ch.remoteBalance + amount) := by
    unfold checkedAdd
    rw [if_pos (by omega)]
  refine ⟨⟨ch.localBalance - amount, ch.remoteBalance + amount⟩, ⟨?_, ?_⟩, ?_⟩
  · have := checkedSub_eq_some.mp hsub
    show (ch.localBalance - amount).toNat = b.remaining
    omega
  · have := checkedAdd_eq_some.mp hroom
    show (ch.remoteBalance + amount).toNat = b.spent
    omega
  · unfold MockRail.pay
    simp only [hch, hsub, hroom]
    rfl

/-- The rail's channel and the session are accounts of the same allowance. -/
structure InStep (s : ChannelSession MockRail U64) (id : U64) (ch : MockChannel) (a : Allowance) :
    Prop where
  listed : s.rail.channels[id.toNat]? = some ch
  session : s.Tracks a
  rail : ch.Tracks a
  funded : s.funding.isSome
  fits : a.budget < 2 ^ 64

/-- A call that touches neither books nor rail keeps both in step. -/
theorem InStep.sameBooks {s s' : ChannelSession MockRail U64} {id : U64} {ch : MockChannel}
    {a : Allowance} (h : InStep s id ch a) (hsame : s.SameBooks s') (hrail : s'.rail = s.rail) :
    InStep s' id ch a where
  listed := by rw [hrail]; exact h.listed
  session := h.session.sameBooks hsame
  rail := h.rail
  funded := by rw [hsame.funding]; exact h.funded
  fits := h.fits

/-- The channel a session opens is the last one of its rail. -/
theorem inStep_opened {P : Platform} {s s' : ChannelSession MockRail U64} {peer : PeerId}
    {budget : U64} {tx : ChannelTx} (hroom : s.rail.channels.length < 2 ^ 64)
    (h : s.openChannel P mockRail peer budget = some (.ok tx, s')) :
    ∃ id ch a, s'.channel = some id ∧ InStep s' id ch a := by
  rcases ChannelSession.openChannel_cases h with ⟨-, herror, -⟩ | ⟨_, _, -, herror, -⟩ |
    ⟨id, rail, -, -, rfl, hrail⟩
  · cases herror
  · cases herror
  cases hrail
  have hbudget : (budget.setWidth 128).toNat = budget.toNat :=
    BitVec.toNat_setWidth_of_le (by decide)
  refine ⟨_, ⟨budget.setWidth 128, 0⟩, .grant budget.toNat, rfl, ?_⟩
  refine ⟨?_, ⟨hbudget, rfl⟩, ⟨hbudget, rfl⟩, rfl, budget.isLt⟩
  -- the handle is the number of channels before, which fits its word
  show (s.rail.channels ++ [_])[(BitVec.ofNat 64 s.rail.channels.length).toNat]? = some _
  rw [BitVec.toNat_ofNat, Nat.mod_eq_of_lt hroom, List.getElem?_concat_length]

/-- **Payments keep the two ledgers in step.** What the session lets through, the rail can pay. -/
theorem InStep.pay {s s' : ChannelSession MockRail U64} {id : U64} {ch : MockChannel}
    {a : Allowance} {amount : U128} {result : Except (ChannelError MockRailError) Unit}
    (hid : s.channel = some id) (h : InStep s id ch a)
    (hpay : s.pay mockRail amount = some (result, s')) :
    s'.channel = some id ∧ ∃ ch' a', InStep s' id ch' a' := by
  rcases ChannelSession.pay_cases hpay with ⟨-, -, rfl⟩ | ⟨_, -, -, -, rfl⟩ |
    ⟨id', rest, rail, hid', hrest, hle, hrail⟩
  · exact ⟨hid, ch, a, h⟩
  · exact ⟨hid, ch, a, h⟩
  obtain rfl : id = id' := Option.some.inj (hid.symm.trans hid')
  obtain ⟨rest', hrest', hleft⟩ := h.session.remaining
  obtain rfl : rest = rest' := Option.some.inj (hrest.symm.trans hrest')
  -- the session lets the payment through, so the allowance has it left
  obtain ⟨b, hspend⟩ := Allowance.exists_spend (show amount.toNat ≤ a.remaining by omega)
  obtain ⟨-, hbudget, hspent⟩ := Allowance.spend_eq_some.mp hspend
  obtain ⟨ch', htracks, hmock⟩ := MockRail.pay_tracks h.listed h.rail
    (Nat.lt_trans h.fits (by decide)) hspend
  rcases hrail with ⟨e, -, -, hanswer⟩ | ⟨spent, -, rfl, hanswer, hadd⟩
  · -- this rail does not refuse what is left
    cases hmock.symm.trans hanswer
  · cases hmock.symm.trans hanswer
    have hsum := checkedAdd_eq_some.mp hadd
    refine ⟨hid, ch', b, ?_, ⟨h.session.1.trans hbudget.symm, ?_⟩, htracks, h.funded, ?_⟩
    · show (s.rail.channels.set id.toNat ch')[id.toNat]? = some ch'
      obtain ⟨hlt, -⟩ := List.getElem?_eq_some_iff.mp h.listed
      rw [List.getElem?_set_self hlt]
    · show spent.toNat = b.spent
      rw [hspent, ← h.session.2, hsum]
    · rw [hbudget]
      exact h.fits

/-- Before the channel is opened the rail is as it was given; from then on the ledgers agree. -/
structure Joined (rail : MockRail) (s : ChannelSession MockRail U64) : Prop where
  idle : s.channel = none → s.rail = rail
  opened : ∀ id, s.channel = some id → ∃ ch a, InStep s id ch a

/-- A session in step with its channel is joined to its rail. -/
theorem Joined.of_inStep {rail : MockRail} {s : ChannelSession MockRail U64} {id : U64}
    {ch : MockChannel} {a : Allowance} (hid : s.channel = some id) (h : InStep s id ch a) :
    Joined rail s where
  idle := fun hnone => by cases hid.symm.trans hnone
  opened := fun id' hid' => by
    obtain rfl : id = id' := Option.some.inj (hid.symm.trans hid')
    exact ⟨ch, a, h⟩

/-- Opening joins the session to the channel that the rail adds. -/
theorem Joined.openChannel {P : Platform} {rail : MockRail} {s s' : ChannelSession MockRail U64}
    {peer : PeerId} {budget : U64} {result : Except (ChannelError MockRailError) ChannelTx}
    (hroom : rail.channels.length < 2 ^ 64) (h : Joined rail s)
    (hopen : s.openChannel P mockRail peer budget = some (result, s')) : Joined rail s' := by
  rcases ChannelSession.openChannel_cases hopen with ⟨-, -, rfl⟩ | ⟨_, _, -, -, -, hrail⟩ |
    ⟨_, _, hnone, rfl, -⟩
  · exact h
  · -- this rail opens every channel
    cases hrail
  · obtain ⟨id, ch, a, hid, hstep⟩ := inStep_opened (by rw [h.idle hnone]; exact hroom) hopen
    exact .of_inStep hid hstep

/-- Paying moves both ledgers alike. -/
theorem Joined.pay {rail : MockRail} {s s' : ChannelSession MockRail U64} {amount : U128}
    {result : Except (ChannelError MockRailError) Unit} (h : Joined rail s)
    (hpay : s.pay mockRail amount = some (result, s')) : Joined rail s' := by
  cases hchannel : s.channel with
  | none =>
    rcases ChannelSession.pay_cases hpay with ⟨-, -, rfl⟩ | ⟨_, -, -, -, rfl⟩ | ⟨_, _, _, hid, -⟩
    · exact h
    · exact h
    · cases hid.symm.trans hchannel
  | some id =>
    obtain ⟨ch, a, hstep⟩ := h.opened id hchannel
    obtain ⟨hid, ch', a', hstep'⟩ := hstep.pay hchannel hpay
    exact .of_inStep hid hstep'

/-- **In every run** the session and the in-memory rail agree. -/
theorem joined_of_trace {P : Platform} {cfg : ChannelConfig} {rail : MockRail}
    {events : List (Event MockRailError)} {s : ChannelSession MockRail U64}
    (hroom : rail.channels.length < 2 ^ 64)
    (h : Trace (Step P mockRail) (some (.new cfg rail)) events (some s)) : Joined rail s := by
  refine h.invariant (fun _ o => ∀ s, o = some s → Joined rail s) ?_ ?_ s rfl
  · rintro _ ⟨⟩
    exact ⟨fun _ => rfl, fun id hid => by cases hid⟩
  · intro _ o event o' ih step s' hs'
    cases step with
    | openChannel call =>
      cases hs'
      exact (ih _ rfl).openChannel hroom call
    | pay call =>
      cases hs'
      exact (ih _ rfl).pay call
    | close call => cases hs'

/-! ## The settlement -/

/-- An amount that fits a capacity is paid in full. -/
theorem toNat_shannons {amount : U128} (h : amount.toNat < 2 ^ 64) :
    (shannons amount).toNat = amount.toNat := by
  unfold shannons
  rw [if_pos h, BitVec.toNat_setWidth, Nat.mod_eq_of_lt h]

/-- What is left is the channel's local balance. -/
theorem InStep.remaining {s : ChannelSession MockRail U64} {id : U64} {ch : MockChannel}
    {a : Allowance} (h : InStep s id ch a) : s.remaining = some ch.localBalance := by
  obtain ⟨rest, hrest, hleft⟩ := h.session.remaining
  rw [hrest]
  exact congrArg some (BitVec.eq_of_toNat_eq (hleft.trans h.rail.1.symm))

/-- `close` settles with the balances of the channel. -/
theorem InStep.close {s : ChannelSession MockRail U64} {id : U64} {ch : MockChannel}
    {a : Allowance} (hid : s.channel = some id) (h : InStep s id ch a) :
    ∃ funding taken, s.funding = some funding ∧
      s.close mockRail =
        some (.ok (⟨ch.localBalance, ch.remoteBalance⟩,
          buildSettleTx s.cfg funding ⟨ch.localBalance, ch.remoteBalance⟩), taken) := by
  obtain ⟨funding, hfunding⟩ := Option.isSome_iff_exists.mp h.funded
  have hrail : mockRail.close id s.rail =
      some (.ok ⟨ch.localBalance, ch.remoteBalance⟩, s.rail) := by
    show MockRail.close id s.rail = _
    unfold MockRail.close
    rw [h.listed]
  refine ⟨funding, { s with channel := none, funding := none }, hfunding, ?_⟩
  unfold ChannelSession.close
  simp only [hid, hfunding, hrail]
  rfl

/-! ## The accounts -/

/-- The accounts of a live session after the calls `events`, over any rail. -/
structure Accounted {ρ χ ε : Type} (P : Platform) (R : FiberRail ρ χ ε) (events : List (Event ε))
    (s : ChannelSession ρ χ) : Prop where
  spent : s.spent.toNat = paidSinceOpen events
  budget : s.budget.toNat = openedWith events
  within : s.spent.toNat ≤ s.budget.toNat
  remaining : ∃ rest, s.remaining = some rest ∧ s.spent.toNat + rest.toNat = s.budget.toNat
  openChannel_panics : ∀ peer budget, s.openChannel P R peer budget = none →
    R.openChannel peer (budget.setWidth 128) ((buildFundingTx s.cfg budget).outpoint P) s.rail =
      none
  pay_panics : ∀ amount, s.pay R amount = none →
    ∃ id, s.channel = some id ∧ R.pay id amount s.rail = none
  close_panics : s.close R = none → ∃ id, s.channel = some id ∧ R.close id s.rail = none
  openChannel_error : ∀ peer budget e s',
    s.openChannel P R peer budget = some (.error e, s') → s.SameBooks s'
  pay_error : ∀ amount e s', s.pay R amount = some (.error e, s') → s.SameBooks s'
  close_consumes : ∀ result o, Step P R (some s) (.close result) o → o = none

/-- The accounts of a live session over the in-memory rail. -/
structure MockAccounted (P : Platform) (cfg : ChannelConfig) (s : ChannelSession MockRail U64) :
    Prop where
  openChannel_returns : ∀ peer budget, s.openChannel P mockRail peer budget ≠ none
  pay_returns : ∀ amount, s.pay mockRail amount ≠ none
  close_returns : s.close mockRail ≠ none
  ledgers : ∀ id, s.channel = some id → ∃ ch, s.rail.channels[id.toNat]? = some ch ∧
    ch.localBalance.toNat + ch.remoteBalance.toNat = s.budget.toNat ∧
    s.remaining = some ch.localBalance ∧ s.spent = ch.remoteBalance ∧
    ∃ funding taken capacity, s.funding = some funding ∧
      s.close mockRail =
        some (.ok (⟨ch.localBalance, ch.remoteBalance⟩,
          buildSettleTx cfg funding ⟨ch.localBalance, ch.remoteBalance⟩), taken) ∧
      (buildSettleTx cfg funding ⟨ch.localBalance, ch.remoteBalance⟩).tx.raw.outputs =
        [{ capacity, lock := cfg.accountLock, type := none }] ∧
      capacity.toNat = ch.localBalance.toNat

/-- **Every run** over any rail keeps the accounts. -/
theorem accounted_of_trace {ρ χ ε : Type} {P : Platform} {R : FiberRail ρ χ ε}
    {cfg : ChannelConfig} {rail : ρ} {events : List (Event ε)} {s : ChannelSession ρ χ}
    (h : Trace (Step P R) (some (.new cfg rail)) events (some s)) : Accounted P R events s := by
  -- the books are those of an allowance, whose bound gives the rest
  obtain ⟨a, htracks, hspent, hbudget, -⟩ := exists_allowance h
  have hsum := a.spent_add_remaining
  have hb := htracks.1
  have hs := htracks.2
  exact
    { spent := hs.trans hspent
      budget := hb.trans hbudget
      within := by omega
      remaining := by
        obtain ⟨rest, hrest, hleft⟩ := htracks.remaining
        exact ⟨rest, hrest, by omega⟩
      openChannel_panics := fun _ _ => ChannelSession.openChannel_panics
      pay_panics := by
        intro amount hnone
        obtain ⟨id, hid, -, hrail⟩ := htracks.pay_panics hnone
        exact ⟨id, hid, hrail⟩
      close_panics := ChannelSession.close_panics
      openChannel_error := fun _ _ _ _ => ChannelSession.openChannel_error
      pay_error := fun _ _ _ => ChannelSession.pay_error
      close_consumes := by
        rintro result _ ⟨⟩
        rfl }

/-- Over the in-memory rail the accounts are the channel's, and no call panics. -/
theorem Joined.mockAccounted {P : Platform} {rail : MockRail} {s : ChannelSession MockRail U64}
    (h : Joined rail s) {a : Allowance} (htracks : s.Tracks a) : MockAccounted P s.cfg s where
  openChannel_returns := fun peer budget hnone => by
    cases ChannelSession.openChannel_panics hnone
  pay_returns := fun amount hnone => by
    -- the rail is asked for no more than is left, and then it pays
    obtain ⟨id, hid, hle, hrail⟩ := htracks.pay_panics hnone
    obtain ⟨ch, a', hstep⟩ := h.opened id hid
    have hbudget : a'.budget = a.budget := hstep.session.1.symm.trans htracks.1
    have hspent : a'.spent = a.spent := hstep.session.2.symm.trans htracks.2
    have hsame : a'.remaining = a.remaining := by
      unfold Allowance.remaining
      rw [hbudget, hspent]
    obtain ⟨b, hspend⟩ := Allowance.exists_spend (hsame ▸ hle)
    obtain ⟨ch', -, hmock⟩ := MockRail.pay_tracks hstep.listed hstep.rail
      (Nat.lt_trans hstep.fits (by decide)) hspend
    cases hmock.symm.trans hrail
  close_returns := fun hnone => by
    obtain ⟨id, hid, hrail⟩ := ChannelSession.close_panics hnone
    obtain ⟨ch, a, hstep⟩ := h.opened id hid
    obtain ⟨funding, taken, -, hclose⟩ := hstep.close hid
    cases hclose.symm.trans hnone
  ledgers := fun id hid => by
    obtain ⟨ch, a, hstep⟩ := h.opened id hid
    obtain ⟨funding, taken, hfunding, hclose⟩ := hstep.close hid
    have hsum := a.spent_add_remaining
    have hlocal := hstep.rail.1
    have hremote := hstep.rail.2
    have hbudget := hstep.session.1
    have hspent : s.spent.toNat = ch.remoteBalance.toNat := hstep.session.2.trans hremote.symm
    have hfits := hstep.fits
    refine ⟨ch, hstep.listed, by omega, hstep.remaining, BitVec.eq_of_toNat_eq hspent, funding,
      taken, shannons ch.localBalance, hfunding, hclose, rfl, toNat_shannons (by omega)⟩

/-- **The session's books are right, and the rail's agree with them.** -/
theorem channel_accounting (P : Platform) :
    (∀ (ρ χ ε : Type) (R : FiberRail ρ χ ε) cfg rail events s,
      Trace (Step P R) (some (.new cfg rail)) events (some s) → Accounted P R events s) ∧
    ∀ cfg (rail : MockRail) events s, rail.channels.length < 2 ^ 64 →
      Trace (Step P mockRail) (some (.new cfg rail)) events (some s) → MockAccounted P cfg s := by
  refine ⟨fun _ _ _ _ _ _ _ _ h => accounted_of_trace h, ?_⟩
  intro cfg rail events s hroom h
  obtain ⟨a, htracks, -, -, hcfg⟩ := exists_allowance h
  have hall := (joined_of_trace hroom h).mockAccounted (P := P) htracks
  rw [hcfg] at hall
  exact hall

/-! ### A session over the in-memory rail -/

def sampleChannel : ChannelConfig where
  accountLock := sampleShop
  accountInput := ⟨sampleHash 7, 0⟩
  accountCapacity := 1000
  fundingLock := sampleShop
  cellDeps := []
  headerDep := sampleHash 9

/-- A channel of 100 shannons: 80 are paid, a payment of 50 is refused. -/
theorem channel_accounting_mock :
    ∃ events s, Trace (Step Platform.sample mockRail) (some (.new sampleChannel .new)) events
        (some s) ∧
      paidSinceOpen events = 80 ∧ Accounted Platform.sample mockRail events s ∧
      MockAccounted Platform.sample sampleChannel s := by
  have run := Trace.snoc (Trace.snoc (Trace.single (Step.openChannel (show
    ChannelSession.openChannel Platform.sample mockRail ⟨[1]⟩ 100 (.new sampleChannel .new) =
      some (_, _) from rfl)))
    (Step.pay (show ChannelSession.pay mockRail 80 _ = some (.ok (), _) from rfl)))
    (Step.pay (show ChannelSession.pay mockRail 50 _ = some (.error (.overBudget 20 50), _) from
      rfl))
  have hall := channel_accounting Platform.sample
  exact ⟨_, _, run, rfl, hall.1 _ _ _ _ _ _ _ _ run,
    hall.2 _ _ _ _ (by decide) run⟩

/-! ### A rail that refuses to close -/

/-- It takes every channel and every payment, and returns an error when it is asked to close. -/
def refusingRail : FiberRail Unit Unit Unit where
  openChannel := fun _ _ _ rail => some (.ok (), rail)
  pay := fun _ _ rail => some (.ok (), rail)
  close := fun _ rail => some (.error (), rail)

def Event.failed {ε : Type} : Event ε → Bool
  | .openChannel _ _ (.error _) => true
  | .pay _ (.error _) => true
  | .close (.error _) => true
  | _ => false

def books {ρ χ : Type} (s : ChannelSession ρ χ) : Option χ × Option OutPoint × U128 × U128 :=
  (s.channel, s.funding, s.budget, s.spent)

/-- The handle and the funding cell are taken before the rail is asked, and go with the session. -/
theorem refused_close_loses_channel :
    ¬ ∀ events s event o,
      Trace (Step Platform.sample refusingRail) (some (.new sampleChannel ())) events (some s) →
      Step Platform.sample refusingRail (some s) event o → event.failed = true →
      o.map books = some (books s) := by
  intro hall
  have run := Trace.single (Step.openChannel (show
    ChannelSession.openChannel Platform.sample refusingRail ⟨[1]⟩ 100 (.new sampleChannel ()) =
      some (_, _) from rfl))
  have hclose := hall _ _ _ _ run
    (Step.close (show ChannelSession.close refusingRail _ = some (.error (.rail ()), _) from rfl))
    rfl
  cases hclose

end CkbController.Sdk
