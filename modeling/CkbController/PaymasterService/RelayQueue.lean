import CkbController.PaymasterService.Settlement

/-!
# The invoice relay as a queue

The relay against its history of calls. `Follows` says what it should be after any of them: the
last 256 publications in their order, numbered from 1, with those paid that were confirmed while
they were in the queue; and what each call does next. `relay_follows` is that it is so in every run.
-/

namespace CkbController.PaymasterService.GameServer

open ByteCodec MachineInt Window

/-! ## Calls -/

/-- The arguments of `publish`, and the clock when it is called. -/
structure Publication where
  gameId : Option String
  toPlayer : Option String
  fromPlayer : Option String
  invoice : String
  amountCkb : U64
  ts : U64

def RelayInvoice.publication (inv : RelayInvoice) : Publication :=
  ⟨inv.gameId, inv.toPlayer, inv.fromPlayer, inv.invoice, inv.amountCkb, inv.ts⟩

inductive RelayCall where
  | publish (p : Publication)
  | nextFor (payer : Option String)
  | markPaid (id : U64)

inductive RelayReply where
  | id (id : U64)
  | invoice (inv : Option RelayInvoice)

namespace Relay

/-- One call. `none`: it panics. -/
def perform (relay : Relay) : RelayCall → Option (RelayReply × Relay)
  | .publish p =>
    (relay.publish p.gameId p.toPlayer p.fromPlayer p.invoice p.amountCkb p.ts).map
      fun (id, relay') => (.id id, relay')
  | .nextFor payer => some (.invoice (relay.nextFor payer), relay)
  | .markPaid id =>
    match relay.markPaid id with
    | some (inv, relay') => some (.invoice (some inv), relay')
    | none => some (.invoice none, relay)

def Performs (relay : Relay) (call : RelayCall) (relay' : Relay) : Prop :=
  ∃ reply, relay.perform call = some (reply, relay')

end Relay

/-! ## The history of the calls -/

def publications (calls : List RelayCall) : List Publication :=
  calls.filterMap fun
    | .publish p => some p
    | _ => none

/-- The last 256 publications, with their numbers. -/
def held (calls : List RelayCall) : List (Publication × Nat) :=
  shed invoiceCap ((publications calls).zipIdx 1)

/-- `mark_paid` was called for the `k`-th publication while it was in the queue. -/
def Confirmed (calls : List RelayCall) (k : Nat) : Prop :=
  ∃ before id after, calls = before ++ RelayCall.markPaid id :: after ∧ id.toNat = k ∧
    k ∈ (held before).map Prod.snd

/-- The invoice of a publication. -/
structure Queued (calls : List RelayCall) (inv : RelayInvoice) (entry : Publication × Nat) :
    Prop where
  number : inv.number = entry.2
  fields : inv.publication = entry.1
  paid : inv.paid = true ↔ Confirmed calls entry.2

/-- An unpaid invoice that `payer` did not publish and that is open or addressed to it; without a
payer, any unpaid one. -/
structure MayPay (payer : Option String) (inv : RelayInvoice) : Prop where
  unpaid : inv.paid = false
  notOwn : ∀ p, payer = some p → inv.fromPlayer ≠ some p
  addressed : ∀ p, payer = some p → inv.toPlayer = none ∨ inv.toPlayer = some p

/-- The relay that the calls lead to, and what it does next. -/
structure Follows (calls : List RelayCall) (relay : Relay) : Prop where
  queue : List.Forall₂ (Queued calls) relay.invoices (held calls)
  publish : ∀ p reply relay', relay.perform (.publish p) = some (reply, relay') →
    reply = .id (BitVec.ofNat 64 ((publications calls).length + 1))
  publish_returns : ∀ p, (relay.perform (.publish p)).isSome = true ↔
    (publications calls).length + 2 < 2 ^ 64
  markPaid : ∀ inv ∈ relay.invoices, ∃ relay',
    relay.perform (.markPaid inv.id) = some (.invoice (some { inv with paid := true }), relay')
  markPaid_none : ∀ id, relay.perform (.markPaid id) = some (.invoice none, relay) ↔
    ∀ inv ∈ relay.invoices, inv.id ≠ id
  nextFor : ∀ payer inv, relay.perform (.nextFor payer) = some (.invoice (some inv), relay) ↔
    inv ∈ relay.invoices ∧ MayPay payer inv ∧
      ∀ other ∈ relay.invoices, MayPay payer other → inv.number ≤ other.number
  nextFor_none : ∀ payer, relay.perform (.nextFor payer) = some (.invoice none, relay) ↔
    ∀ inv ∈ relay.invoices, ¬ MayPay payer inv

section History

variable {calls : List RelayCall} {call : RelayCall} {p : Publication} {k : Nat}

theorem publications_publish : publications (calls ++ [.publish p]) = publications calls ++ [p] :=
  List.filterMap_append ..

/-- No other call publishes. -/
theorem publications_concat (h : ∀ p, call ≠ .publish p) :
    publications (calls ++ [call]) = publications calls := by
  unfold publications
  rw [List.filterMap_append]
  cases call with
  | publish p => exact absurd rfl (h p)
  | nextFor payer => exact List.append_nil _
  | markPaid id => exact List.append_nil _

/-- A publication joins the queue, and the oldest one leaves a full queue. -/
theorem held_publish : held (calls ++ [.publish p]) =
    shed invoiceCap (held calls ++ [(p, (publications calls).length + 1)]) := by
  unfold held
  rw [publications_publish, List.zipIdx_append, shed_shed_append, Nat.add_comm 1]
  rfl

theorem held_concat (h : ∀ p, call ≠ .publish p) : held (calls ++ [call]) = held calls := by
  unfold held
  rw [publications_concat h]

theorem numbers_held :
    (held calls).map Prod.snd = window invoiceCap (publications calls).length := by
  unfold held
  rw [map_shed, List.zipIdx_map_snd, shed_range']

/-- A publication is confirmed by the calls so far, or by this one while it is held. -/
theorem confirmed_concat : Confirmed (calls ++ [call]) k ↔
    Confirmed calls k ∨
      ∃ id, call = .markPaid id ∧ id.toNat = k ∧ k ∈ (held calls).map Prod.snd := by
  refine ⟨?_, ?_⟩
  · intro ⟨before, id, after, heq, hid, hheld⟩
    rcases List.eq_nil_or_concat after with hafter | ⟨after', last, hafter⟩
    · -- the call itself
      subst hafter
      obtain ⟨hbefore, hcall⟩ := List.append_inj' heq rfl
      subst hbefore
      exact Or.inr ⟨id, List.singleton_inj.mp hcall, hid, hheld⟩
    · subst hafter
      rw [List.concat_eq_append, ← List.cons_append, ← List.append_assoc] at heq
      exact Or.inl ⟨before, id, after', (List.append_inj' heq rfl).1, hid, hheld⟩
  · intro h
    rcases h with ⟨before, id, after, heq, hid, hheld⟩ | ⟨id, hcall, hid, hheld⟩
    · exact ⟨before, id, after ++ [call], by rw [heq]; simp, hid, hheld⟩
    · exact ⟨calls, id, [], by rw [hcall], hid, hheld⟩

/-- A publication that is still to come is not confirmed. -/
theorem Confirmed.le (h : Confirmed calls k) : k ≤ (publications calls).length := by
  obtain ⟨before, id, after, heq, -, hheld⟩ := h
  rw [numbers_held] at hheld
  have hle : (publications before).length ≤ (publications calls).length := by
    unfold publications
    rw [heq, List.filterMap_append, List.length_append]
    exact Nat.le_add_right _ _
  exact Nat.le_trans (mem_window.mp hheld).2.1 hle

end History

/-! ## What each call does -/

/-- The queue entry after `mark_paid(id)`. -/
def RelayInvoice.confirm (id : U64) (inv : RelayInvoice) : RelayInvoice :=
  if inv.id = id then { inv with paid := true } else inv

section Confirm

variable {id : U64} {inv : RelayInvoice}

@[simp] theorem RelayInvoice.confirm_number : (inv.confirm id).number = inv.number := by
  unfold RelayInvoice.confirm
  split <;> rfl

/-- A confirmation changes nothing of what was published. -/
@[simp] theorem RelayInvoice.confirm_publication :
    (inv.confirm id).publication = inv.publication := by
  unfold RelayInvoice.confirm
  split <;> rfl

/-- An invoice is paid if it was, or if this confirms it. -/
theorem RelayInvoice.confirm_paid :
    (inv.confirm id).paid = true ↔ inv.paid = true ∨ inv.id = id := by
  unfold RelayInvoice.confirm
  split
  · simp [*]
  · simp [*]

theorem RelayInvoice.confirm_of_ne (h : inv.id ≠ id) : inv.confirm id = inv := if_neg h

/-- A confirmation of an id that is not in the queue changes nothing. -/
theorem map_confirm_of_ne {invoices : List RelayInvoice} (h : ∀ inv ∈ invoices, inv.id ≠ id) :
    invoices.map (RelayInvoice.confirm id) = invoices := by
  refine (List.map_congr_left fun inv hinv => ?_).trans (List.map_id invoices)
  exact RelayInvoice.confirm_of_ne (h inv hinv)

end Confirm

namespace Relay

variable {relay relay' : Relay} {id : U64} {paid : RelayInvoice}
  {invoices invoices' : List RelayInvoice} {payer : Option String}

/-- With distinct ids there is one entry to mark. -/
theorem markPaidIn_eq_map (hdistinct : (invoices.map RelayInvoice.number).Pairwise (· < ·))
    (h : markPaidIn id invoices = some (paid, invoices')) :
    invoices' = invoices.map (RelayInvoice.confirm id) ∧
      ∃ inv ∈ invoices, inv.id = id ∧ paid = { inv with paid := true } := by
  -- the loop stops at the first match, the map goes on; distinct ids make them equal
  induction invoices generalizing invoices' with
  | nil => cases h
  | cons inv rest ih =>
    rw [markPaidIn] at h
    obtain ⟨hfirst, hrest⟩ := List.pairwise_cons.mp hdistinct
    by_cases hid : inv.id = id
    · rw [if_pos hid] at h
      cases h
      have hothers : ∀ other ∈ rest, other.id ≠ id := by
        intro other hother heq
        have hlt := hfirst _ (List.mem_map_of_mem hother)
        exact Nat.ne_of_lt hlt (congrArg BitVec.toNat (hid.trans heq.symm))
      refine ⟨?_, inv, List.mem_cons_self, hid, rfl⟩
      rw [List.map_cons, map_confirm_of_ne hothers, RelayInvoice.confirm, if_pos hid]
    · rw [if_neg hid] at h
      obtain ⟨⟨paid', rest'⟩, hmark, heq⟩ := Option.map_eq_some_iff.mp h
      cases heq
      obtain ⟨hmap, inv', hmem, hpaid⟩ := ih hrest hmark
      refine ⟨?_, inv', List.mem_cons_of_mem _ hmem, hpaid⟩
      rw [List.map_cons, RelayInvoice.confirm_of_ne hid, hmap]

/-- `mark_paid` finds nothing exactly when no invoice in the queue has the id. -/
theorem markPaid_eq_none_iff : relay.markPaid id = none ↔ ∀ inv ∈ relay.invoices, inv.id ≠ id := by
  rw [← Option.not_isSome_iff_eq_none, Relay.markPaid, Option.isSome_map, isSome_markPaidIn]
  push Not
  rfl

/-- `publish` appends an unpaid invoice and cuts the queue to its cap. -/
theorem invoices_publish {p : Publication} (h : relay.publish p.gameId p.toPlayer p.fromPlayer
      p.invoice p.amountCkb p.ts = some (id, relay')) :
    relay'.invoices = shed invoiceCap (relay.invoices ++ [⟨relay.nextId, p.gameId, p.toPlayer,
      p.fromPlayer, p.invoice, p.amountCkb, false, p.ts⟩]) := by
  unfold Relay.publish at h
  obtain ⟨next, -, heq⟩ := Option.bind_eq_some_iff.mp h
  cases heq
  simp only [shed]

/-- `mark_paid` with an unknown id changes nothing. -/
theorem perform_markPaid_of_none (h : relay.markPaid id = none) :
    relay.perform (.markPaid id) = some (.invoice none, relay) := by
  unfold perform
  simp only [h]

/-- `mark_paid` with a known id gives the invoice. -/
theorem perform_markPaid_of_some (h : relay.markPaid id = some (paid, relay')) :
    relay.perform (.markPaid id) = some (.invoice (some paid), relay') := by
  unfold perform
  simp only [h]

/-- The filter of `next_for`, in words. -/
theorem payable_iff {inv : RelayInvoice} : payable payer inv = true ↔ MayPay payer inv := by
  unfold payable
  refine ⟨fun h => ?_, fun h => ?_⟩
  · cases payer with
    -- nobody asks in particular
    | none => exact ⟨by simpa using h, by simp, by simp⟩
    | some p =>
      simp only [Bool.and_eq_true, bne_iff_ne, Option.all_eq_true, beq_iff_eq] at h
      refine ⟨by simpa using h.1, ?_, ?_⟩
      · intro p' hp'
        cases hp'
        exact h.2.1
      · intro p' hp'
        cases hp'
        cases hto : inv.toPlayer with
        | none => exact Or.inl rfl
        | some q => exact Or.inr (congrArg some (h.2.2 q hto))
  · obtain ⟨hunpaid, hnotOwn, haddressed⟩ := h
    cases payer with
    | none => simp [hunpaid]
    | some p =>
      have hown := hnotOwn p rfl
      rcases haddressed p rfl with hto | hto
      · simp [hunpaid, hown, hto]
      · simp [hunpaid, hown, hto]

end Relay

/-! ## Runs -/

/-- The relay holds what the calls have published last, marked as they have confirmed. -/
structure Tracks (calls : List RelayCall) (relay : Relay) : Prop where
  holds : relay.Holds (publications calls).length
  queue : List.Forall₂ (Queued calls) relay.invoices (held calls)

section Runs

variable {calls : List RelayCall} {call : RelayCall} {relay relay' : Relay}
  {reply : RelayReply}

/-- Only a confirmation changes which publications are confirmed. -/
theorem Queued.concat {inv : RelayInvoice} {entry : Publication × Nat} (h : Queued calls inv entry)
    (hcall : ∀ id, call ≠ .markPaid id) : Queued (calls ++ [call]) inv entry := by
  refine ⟨h.number, h.fields, ?_⟩
  rw [h.paid, confirmed_concat, or_iff_left]
  intro ⟨id, heq, _⟩
  exact hcall id heq

/-- A publication is held next, under the next number. -/
theorem Tracks.publish {p : Publication} (h : Tracks calls relay)
    (hperform : relay.perform (.publish p) = some (reply, relay')) :
    Tracks (calls ++ [.publish p]) relay' ∧
      reply = .id (BitVec.ofNat 64 ((publications calls).length + 1)) := by
  obtain ⟨⟨id, relay''⟩, hpublish, heq⟩ := Option.map_eq_some_iff.mp hperform
  cases heq
  obtain ⟨hid, hholds⟩ := h.holds.publish hpublish
  have hreply : id = BitVec.ofNat 64 ((publications calls).length + 1) := by
    rw [← hid, BitVec.ofNat_toNat, BitVec.setWidth_eq]
  refine ⟨⟨?_, ?_⟩, congrArg RelayReply.id hreply⟩
  · rw [publications_publish, List.length_append]
    exact hholds
  · rw [held_publish, Relay.invoices_publish hpublish]
    refine forall₂_shed (List.rel_append ?_ (.cons ⟨?_, rfl, ?_⟩ .nil))
    · exact h.queue.imp fun _ _ hentry => hentry.concat fun _ => RelayCall.noConfusion
    · exact h.holds.nextId
    · -- the new entry is unpaid, and nobody can have confirmed it
      refine iff_of_false Bool.false_ne_true fun hconfirmed => ?_
      rcases confirmed_concat.mp hconfirmed with hbefore | ⟨_, hnot, -⟩
      · exact Nat.not_succ_le_self _ hbefore.le
      · cases hnot

/-- An entry of the queue after a confirmation. -/
theorem Tracks.confirm {id : U64} {inv : RelayInvoice} {entry : Publication × Nat}
    (hentry : Queued calls inv entry) (hheld : entry.2 ∈ (held calls).map Prod.snd) :
    Queued (calls ++ [.markPaid id]) (inv.confirm id) entry := by
  refine ⟨by simpa using hentry.number, by simpa using hentry.fields, ?_⟩
  rw [RelayInvoice.confirm_paid, hentry.paid, confirmed_concat]
  -- the call counts for the one entry whose number it names
  refine or_congr_right ?_
  rw [← hentry.number] at hheld ⊢
  refine ⟨fun hid => ⟨id, rfl, congrArg BitVec.toNat hid.symm, hheld⟩, ?_⟩
  intro ⟨id', hcall, hid, _⟩
  cases hcall
  exact BitVec.toNat_inj.mp hid.symm

/-- The queue after a `mark_paid`, whether or not it has the invoice. -/
theorem Tracks.perform_markPaid {id : U64} (h : Tracks calls relay)
    (hperform : relay.perform (.markPaid id) = some (reply, relay')) :
    relay'.nextId = relay.nextId ∧
      relay'.invoices = relay.invoices.map (RelayInvoice.confirm id) := by
  cases hmark : relay.markPaid id with
  | none =>
    rw [Relay.perform_markPaid_of_none hmark] at hperform
    cases hperform
    exact ⟨rfl, (map_confirm_of_ne (Relay.markPaid_eq_none_iff.mp hmark)).symm⟩
  | some out =>
    rw [Relay.perform_markPaid_of_some hmark] at hperform
    cases hperform
    obtain ⟨⟨inv', invoices'⟩, hin, heq⟩ := Option.map_eq_some_iff.mp hmark
    cases heq
    exact ⟨rfl, (Relay.markPaidIn_eq_map (h.holds.queue ▸ pairwise_window) hin).1⟩

/-- A confirmation marks its invoice and no other. -/
theorem Tracks.markPaid {id : U64} (h : Tracks calls relay)
    (hperform : relay.perform (.markPaid id) = some (reply, relay')) :
    Tracks (calls ++ [.markPaid id]) relay' := by
  obtain ⟨hnext, hinvoices⟩ := h.perform_markPaid hperform
  have hother : ∀ p, RelayCall.markPaid id ≠ .publish p := fun _ => RelayCall.noConfusion
  refine ⟨⟨?_, ?_⟩, ?_⟩
  · rw [hnext, publications_concat hother]
    exact h.holds.nextId
  · rw [hinvoices, publications_concat hother, ← h.holds.queue, List.map_map]
    exact List.map_congr_left fun inv _ => RelayInvoice.confirm_number
  · rw [hinvoices, held_concat hother, List.forall₂_map_left_iff]
    -- an entry of the queue has one of the numbers it holds
    have hqueue := (List.forall₂_and_left relay.invoices (held calls)).mpr
      ⟨fun _ hmem => hmem, h.queue⟩
    refine hqueue.imp fun inv entry hboth => ?_
    have hheld := List.mem_map_of_mem (f := RelayInvoice.number) hboth.1
    rw [h.holds.queue, ← numbers_held, hboth.2.number] at hheld
    exact Tracks.confirm hboth.2 hheld

/-- **One call.** -/
theorem Tracks.step (h : Tracks calls relay) (hstep : relay.Performs call relay') :
    Tracks (calls ++ [call]) relay' := by
  obtain ⟨reply, hperform⟩ := hstep
  cases call with
  | publish p => exact (h.publish hperform).1
  | nextFor payer =>
    cases hperform
    have hother : ∀ p, RelayCall.nextFor payer ≠ .publish p := fun _ => RelayCall.noConfusion
    refine ⟨?_, ?_⟩
    · rw [publications_concat hother]
      exact h.holds
    · rw [held_concat hother]
      exact h.queue.imp fun _ _ hentry => hentry.concat fun _ => RelayCall.noConfusion
  | markPaid id => exact h.markPaid hperform

/-! ## What the relay does next -/

/-- A publication returns unless the ids are used up. -/
theorem Tracks.publish_isSome (h : Tracks calls relay) (p : Publication) :
    (relay.perform (.publish p)).isSome = true ↔ (publications calls).length + 2 < 2 ^ 64 := by
  have hnext := h.holds.nextId
  have hiff : (checkedAdd relay.nextId 1).isSome = true ↔
      (publications calls).length + 2 < 2 ^ 64 := by
    have hone : (1 : U64).toNat = 1 := rfl
    rw [isSome_checkedAdd, hnext, hone]
  rw [← hiff]
  unfold Relay.perform Relay.publish
  cases checkedAdd relay.nextId 1 with
  | none => rfl
  | some next => rfl

/-- What a relay that holds these calls does next. -/
theorem Tracks.follows (h : Tracks calls relay) : Follows calls relay where
  queue := h.queue
  publish p _ _ hperform := (h.publish hperform).2
  publish_returns := h.publish_isSome
  markPaid := by
    intro inv hinv
    cases hmark : relay.markPaid inv.id with
    | none => exact absurd rfl (Relay.markPaid_eq_none_iff.mp hmark inv hinv)
    | some out =>
      obtain ⟨⟨paid, invoices'⟩, hin, rfl⟩ := Option.map_eq_some_iff.mp hmark
      -- the ids in the window ascend, so the first match is the only one
      have hsorted := h.holds.queue ▸ pairwise_window
      obtain ⟨-, inv', hinv', hid, rfl⟩ := Relay.markPaidIn_eq_map hsorted hin
      have hsame : inv' = inv :=
        List.inj_on_of_nodup_map (hsorted.imp Nat.ne_of_lt) hinv' hinv (congrArg BitVec.toNat hid)
      rw [Relay.perform_markPaid_of_some hmark, hsame]
      exact ⟨_, rfl⟩
  markPaid_none := by
    intro id
    rw [← Relay.markPaid_eq_none_iff]
    cases hmark : relay.markPaid id with
    | none => exact iff_of_true (Relay.perform_markPaid_of_none hmark) rfl
    | some out =>
      rw [Relay.perform_markPaid_of_some hmark]
      simp
  nextFor := by
    intro payer inv
    have hfind := @find?_eq_some_iff_least _ RelayInvoice.number (Relay.payable payer)
      relay.invoices inv (h.holds.queue ▸ pairwise_window)
    simp only [Relay.payable_iff] at hfind
    rw [← hfind]
    unfold Relay.perform Relay.nextFor
    simp
  nextFor_none := by
    intro payer
    have hfind := @List.find?_eq_none _ (Relay.payable payer) relay.invoices
    simp only [Relay.payable_iff] at hfind
    rw [← hfind]
    unfold Relay.perform Relay.nextFor
    simp

end Runs

/-- **The relay is the queue it should be**, after every run of calls. -/
theorem relay_follows (calls : List RelayCall) (relay : Relay)
    (run : Trace Relay.Performs .new calls relay) : Follows calls relay := by
  refine (run.invariant Tracks ⟨Relay.holds_new, .nil⟩ ?_).follows
  intro calls relay call relay' h hstep
  exact h.step hstep

/-- One invoice is published, and confirmed. -/
theorem relay_follows_one_invoice :
    Follows [.publish ⟨none, none, none, "fibt1", 5, 1700000000⟩, .markPaid 1]
      { invoices := [sampleInvoice true], nextId := 2 } := by
  have published : Relay.new.Performs (.publish ⟨none, none, none, "fibt1", 5, 1700000000⟩)
      { invoices := [sampleInvoice false], nextId := 2 } := by
    refine ⟨.id 1, ?_⟩
    simp only [Relay.perform, publish_first, Option.map_some]
  exact relay_follows _ _ ((Trace.single published).snoc ⟨.invoice (sampleInvoice true), rfl⟩)

end CkbController.PaymasterService.GameServer
