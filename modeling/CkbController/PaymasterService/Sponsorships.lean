import CkbController.Lib.Trace
import CkbController.PaymasterService.FeeRisk

/-!
# Two clients of one relayer

Two clients ask one `SponsorService` for a fee, sign, and broadcast, in any interleaving. The
service keeps no state: the fee cell is the first one that the collector's search shows on the
chain as it is and that covers the request, and the chain changes only when a transaction is
committed.

* `Tracked` — the chain is the initial one after the broadcasts, and each grant took its fee input
  from the chain of its time;
* `both_committed_iff` — when both transactions are committed, and which fee inputs two grants
  on the same chain get.
-/

namespace CkbController.PaymasterService

open ByteCodec MachineInt Checks Paymaster

/-! ## The node -/

/-- The out points that `tx` consumes. -/
def spends (tx : Transaction) : List OutPoint := tx.raw.inputs.map CellInput.previousOutput

def createdCells (P : Platform) (tx : Transaction) : LiveCells :=
  (List.zipWith Cell.mk tx.raw.outputs tx.raw.outputsData).zipIdx.map fun e =>
    (⟨P.txHash tx.raw, BitVec.ofNat 32 e.2⟩, e.1)

inductive Client where
  | left
  | right
deriving DecidableEq

/-- The transactions broadcast so far, in order. -/
abbrev Broadcasts := List (Client × Transaction)

namespace LiveCells

variable (P : Platform) (cells : LiveCells)

def isLive (op : OutPoint) : Bool := cells.any fun e => e.1 = op

/-- The node commits a transaction iff all its inputs are live. -/
def commits (tx : Transaction) : Bool := (spends tx).all cells.isLive

/-- The chain after `tx` is broadcast. -/
def receive (tx : Transaction) : LiveCells :=
  if cells.commits tx then (cells ++ createdCells P tx).filter fun e => e.1 ∉ spends tx else cells

def replay (history : Broadcasts) : LiveCells :=
  history.foldl (fun cells e => cells.receive P e.2) cells

variable {P cells} {tx : Transaction} {op : OutPoint}

theorem isLive_iff : cells.isLive op = true ↔ ∃ e ∈ cells, e.1 = op := by
  simp [isLive, List.any_eq_true]

theorem isLive_of_mem {e : OutPoint × Cell} (h : e ∈ cells) : cells.isLive e.1 = true :=
  isLive_iff.mpr ⟨e, h, rfl⟩

theorem replay_concat (history : Broadcasts) (e : Client × Transaction) :
    cells.replay P (history ++ [e]) = (cells.replay P history).receive P e.2 :=
  List.foldl_concat ..

/-- What was live is live after a broadcast unless the transaction is committed and spends it. -/
theorem isLive_receive (h : cells.isLive op = true) :
    (cells.receive P tx).isLive op = true ↔ ¬ (cells.commits tx = true ∧ op ∈ spends tx) := by
  by_cases hcommits : cells.commits tx = true
  · rw [receive, if_pos hcommits, isLive_iff]
    constructor
    · rintro ⟨e, he, rfl⟩ ⟨-, hspent⟩
      exact of_decide_eq_true (List.mem_filter.mp he).2 hspent
    · intro hnot
      obtain ⟨e, he, rfl⟩ := isLive_iff.mp h
      have hkept : e.1 ∉ spends tx := fun hspent => hnot ⟨hcommits, hspent⟩
      exact ⟨e, List.mem_filter.mpr ⟨List.mem_append_left _ he, decide_eq_true hkept⟩, rfl⟩
  · rw [receive, if_neg hcommits]
    exact iff_of_true h fun hc => hcommits hc.1

end LiveCells

/-! ## The clients -/

/-- A sponsorship, and what had been broadcast when it was given. -/
structure Grant where
  base : Transaction
  out : Sponsored
  after : Broadcasts

inductive Phase where
  | idle
  | refused (e : ServiceError)
  | granted (g : Grant)
  | signed (g : Grant) (tx : Transaction)
  /-- `after`: what had been broadcast before. -/
  | sent (g : Grant) (tx : Transaction) (after : Broadcasts)

def Phase.grant? : Phase → Option Grant
  | .idle => none
  | .refused _ => none
  | .granted g => some g
  | .signed g _ => some g
  | .sent g _ _ => some g

/-- One service, its node, and two clients. -/
structure Deployment where
  cells : LiveCells
  history : Broadcasts
  phase : Client → Phase

namespace Deployment

def start (cells : LiveCells) : Deployment := { cells, history := [], phase := fun _ => .idle }

def setPhase (w : Deployment) (c : Client) (p : Phase) : Deployment :=
  { w with phase := Function.update w.phase c p }

theorem setPhase_self (w : Deployment) (c : Client) (p : Phase) : (w.setPhase c p).phase c = p :=
  Function.update_self ..

theorem setPhase_of_ne (w : Deployment) {c d : Client} (p : Phase) (h : d ≠ c) :
    (w.setPhase c p).phase d = w.phase d :=
  Function.update_of_ne h ..

/-- Whose phase is looked up. -/
theorem setPhase_cases (w : Deployment) (c : Client) (p : Phase) (d : Client) :
    d = c ∧ (w.setPhase c p).phase d = p ∨ d ≠ c ∧ (w.setPhase c p).phase d = w.phase d := by
  by_cases hd : d = c
  · exact Or.inl ⟨hd, hd ▸ w.setPhase_self c p⟩
  · exact Or.inr ⟨hd, w.setPhase_of_ne p hd⟩

end Deployment

inductive Action where
  | sponsor (token : Bytes) (base : Transaction) (now : U64)
  | sign (tx : Transaction)
  | broadcast

section Steps

variable (P : Platform) (occupiedCapacity : CellOutput → U64) (svc : SponsorService)
  (node : LiveCells → HttpCkbRpc)

/-- Signing fills in witnesses; broadcasting changes the chain if the node commits. -/
inductive Deployment.Step : Deployment → Client × Action → Deployment → Prop where
  | sponsored {w : Deployment} {c : Client} {token : Bytes} {base : Transaction} {now : U64}
      {out : Sponsored} (idle : w.phase c = .idle)
      (ok : (svc.onNode (node w.cells)).sponsor P occupiedCapacity token base now = .ok out) :
      Step w (c, .sponsor token base now) (w.setPhase c (.granted ⟨base, out, w.history⟩))
  | refused {w : Deployment} {c : Client} {token : Bytes} {base : Transaction} {now : U64}
      {e : ServiceError} (idle : w.phase c = .idle)
      (error : (svc.onNode (node w.cells)).sponsor P occupiedCapacity token base now = .error e) :
      Step w (c, .sponsor token base now) (w.setPhase c (.refused e))
  | signed {w : Deployment} {c : Client} {g : Grant} {tx : Transaction}
      (granted : w.phase c = .granted g) (raw : tx.raw = g.out.tx.raw) :
      Step w (c, .sign tx) (w.setPhase c (.signed g tx))
  | broadcast {w : Deployment} {c : Client} {g : Grant} {tx : Transaction}
      (signed : w.phase c = .signed g tx) :
      Step w (c, .broadcast)
        { (w.setPhase c (.sent g tx w.history)) with
          cells := w.cells.receive P tx
          history := w.history ++ [(c, tx)] }

end Steps

/-! ## Every run -/

section Invariant

variable {P : Platform} {occupiedCapacity : CellOutput → U64} {svc : SponsorService}
  {node : LiveCells → HttpCkbRpc} {cells : LiveCells} {w w' : Deployment} {c d : Client}

/-- The grant took its fee input from the chain of its time. -/
structure FromChain (P : Platform) (occupiedCapacity : CellOutput → U64) (svc : SponsorService)
    (chain : LiveCells) (g : Grant) : Prop where
  found : (chain.collected svc.feeLock (svc.needed P occupiedCapacity g.base)).map Prod.fst =
    some g.out.feeInput
  spends : spends g.out.tx = spends g.base ++ [g.out.feeInput]

/-- A grant answers the chain of its time. -/
theorem fromChain_of_sponsor {chain : LiveCells} {token : Bytes} {now : U64} {g : Grant}
    (hnode : (node chain).Answers chain (feeSearch svc.feeLock))
    (h : (svc.onNode (node chain)).sponsor P occupiedCapacity token g.base now = .ok g.out) :
    FromChain P occupiedCapacity svc chain g := by
  obtain ⟨e, change, hfound, -, hinput, -, htx⟩ := sponsored_eq hnode h
  refine ⟨?_, ?_⟩
  · rw [hfound, hinput]
    rfl
  · rw [htx, hinput]
    exact List.map_append

/-- The fee input of a grant was live when it was granted. -/
theorem FromChain.isLive {chain : LiveCells} {g : Grant}
    (h : FromChain P occupiedCapacity svc chain g) : chain.isLive g.out.feeInput = true := by
  obtain ⟨e, he, hfst⟩ := Option.map_eq_some_iff.mp h.found
  rw [← hfst]
  exact LiveCells.isLive_of_mem (mem_of_collected he).1

/-- The chain is the initial one after the broadcasts; each client broadcasts at most once; each
grant was found on the chain of its time, and nobody signs anything else. -/
structure Tracked (P : Platform) (occupiedCapacity : CellOutput → U64) (svc : SponsorService)
    (cells : LiveCells) (w : Deployment) : Prop where
  chain : w.cells = cells.replay P w.history
  once : (w.history.map Prod.fst).Nodup
  sentOnly : ∀ c ∈ w.history.map Prod.fst, ∃ g tx after, w.phase c = .sent g tx after
  grant : ∀ c g, (w.phase c).grant? = some g → g.after <+: w.history ∧
    FromChain P occupiedCapacity svc (cells.replay P g.after) g
  signed : ∀ c g tx, w.phase c = .signed g tx → tx.raw = g.out.tx.raw
  sent : ∀ c g tx after, w.phase c = .sent g tx after →
    tx.raw = g.out.tx.raw ∧ g.after <+: after ∧ after ++ [(c, tx)] <+: w.history

/-- A client that has not broadcast moves on without touching the chain. -/
theorem Tracked.setPhase {p : Phase} (h : Tracked P occupiedCapacity svc cells w)
    (hnotSent : ∀ g tx after, w.phase c ≠ .sent g tx after)
    (hnotSent' : ∀ g tx after, p ≠ .sent g tx after)
    (hgrant : ∀ g, p.grant? = some g → g.after <+: w.history ∧
      FromChain P occupiedCapacity svc (cells.replay P g.after) g)
    (hsigned : ∀ g tx, p = .signed g tx → tx.raw = g.out.tx.raw) :
    Tracked P occupiedCapacity svc cells (w.setPhase c p) where
  chain := h.chain
  once := h.once
  sentOnly := by
    intro d hd
    obtain ⟨g, tx, after, hsent⟩ := h.sentOnly d hd
    refine ⟨g, tx, after, ?_⟩
    have hne : d ≠ c := by
      rintro rfl
      exact hnotSent _ _ _ hsent
    rw [w.setPhase_of_ne p hne, hsent]
  grant := by
    intro d g hg
    rcases w.setPhase_cases c p d with ⟨rfl, hp⟩ | ⟨-, hp⟩
    · exact hgrant g (hp ▸ hg)
    · exact h.grant d g (hp ▸ hg)
  signed := by
    intro d g tx hd
    rcases w.setPhase_cases c p d with ⟨rfl, hp⟩ | ⟨-, hp⟩
    · exact hsigned g tx (hp.symm.trans hd)
    · exact h.signed d g tx (hp.symm.trans hd)
  sent := by
    intro d g tx after hd
    rcases w.setPhase_cases c p d with ⟨rfl, hp⟩ | ⟨-, hp⟩
    · exact absurd (hp.symm.trans hd) (hnotSent' g tx after)
    · exact h.sent d g tx after (hp.symm.trans hd)

/-- A signed transaction is broadcast. -/
theorem Tracked.broadcast {g : Grant} {tx : Transaction}
    (h : Tracked P occupiedCapacity svc cells w) (hsigned : w.phase c = .signed g tx) :
    Tracked P occupiedCapacity svc cells
      { (w.setPhase c (.sent g tx w.history)) with
        cells := w.cells.receive P tx
        history := w.history ++ [(c, tx)] } := by
  obtain ⟨hafter, hfrom⟩ := h.grant c g (by rw [hsigned]; rfl)
  -- who has broadcast is in the last phase
  have hnew : c ∉ w.history.map Prod.fst := by
    intro hc
    obtain ⟨g', tx', after', hsent⟩ := h.sentOnly c hc
    rw [hsigned] at hsent
    cases hsent
  refine ⟨?_, ?_, ?_, ?_, ?_, ?_⟩
  · show w.cells.receive P tx = _
    rw [LiveCells.replay_concat, h.chain]
  · show ((w.history ++ [(c, tx)]).map Prod.fst).Nodup
    rw [List.map_append, List.nodup_append]
    refine ⟨h.once, List.nodup_singleton _, ?_⟩
    rintro d hd _ hmem rfl
    rw [List.mem_singleton.mp hmem] at hd
    exact hnew hd
  · intro d hd
    rcases w.setPhase_cases c (.sent g tx w.history) d with ⟨rfl, hp⟩ | ⟨hdc, hp⟩
    · exact ⟨g, tx, w.history, hp⟩
    · rw [List.map_append] at hd
      rcases List.mem_append.mp hd with hd | hd
      · obtain ⟨g', tx', after', hsent⟩ := h.sentOnly d hd
        exact ⟨g', tx', after', hp.trans hsent⟩
      · exact absurd (List.mem_singleton.mp hd) hdc
  · intro d g' hg'
    rcases w.setPhase_cases c (.sent g tx w.history) d with ⟨rfl, hp⟩ | ⟨-, hp⟩
    · obtain rfl := Option.some.inj ((congrArg Phase.grant? hp).symm.trans hg')
      exact ⟨hafter.trans (List.prefix_append _ _), hfrom⟩
    · obtain ⟨hbefore, hchain⟩ := h.grant d g' ((congrArg Phase.grant? hp).symm.trans hg')
      exact ⟨hbefore.trans (List.prefix_append _ _), hchain⟩
  · intro d g' tx' hd
    rcases w.setPhase_cases c (.sent g tx w.history) d with ⟨rfl, hp⟩ | ⟨-, hp⟩
    · cases hp.symm.trans hd
    · exact h.signed d g' tx' (hp.symm.trans hd)
  · intro d g' tx' after' hd
    rcases w.setPhase_cases c (.sent g tx w.history) d with ⟨rfl, hp⟩ | ⟨-, hp⟩
    · cases hp.symm.trans hd
      exact ⟨h.signed d g tx hsigned, hafter, List.prefix_rfl⟩
    · obtain ⟨hraw, hgranted, hsent⟩ := h.sent d g' tx' after' (hp.symm.trans hd)
      exact ⟨hraw, hgranted, hsent.trans (List.prefix_append _ _)⟩

/-- **What one step preserves**, by the kind of the step. -/
theorem Tracked.step {label : Client × Action}
    (hnode : ∀ cells, (node cells).Answers cells (feeSearch svc.feeLock))
    (h : Tracked P occupiedCapacity svc cells w)
    (hstep : Deployment.Step P occupiedCapacity svc node w label w') :
    Tracked P occupiedCapacity svc cells w' := by
  cases hstep with
  | sponsored idle ok =>
    have hnotSent : ∀ g tx after, w.phase _ ≠ .sent g tx after := fun _ _ _ hsent => by
      cases idle.symm.trans hsent
    refine h.setPhase hnotSent nofun ?_ nofun
    rintro g hg
    obtain rfl := Option.some.inj hg
    -- the service read the cells as they are now
    refine ⟨List.prefix_rfl, ?_⟩
    rw [← h.chain]
    exact fromChain_of_sponsor (hnode w.cells) ok
  | refused idle error =>
    have hnotSent : ∀ g tx after, w.phase _ ≠ .sent g tx after := fun _ _ _ hsent => by
      cases idle.symm.trans hsent
    exact h.setPhase hnotSent nofun nofun nofun
  | signed granted raw =>
    have hnotSent : ∀ g tx after, w.phase _ ≠ .sent g tx after := fun _ _ _ hsent => by
      cases granted.symm.trans hsent
    refine h.setPhase hnotSent nofun (fun g hg => ?_) (fun _ _ hsigned => ?_)
    · exact h.grant _ g (by rw [granted]; exact hg)
    · -- signing keeps the transaction
      cases hsigned
      exact raw
  | broadcast signed => exact h.broadcast signed

/-- Every run is tracked. -/
theorem tracked_of_trace {labels : List (Client × Action)}
    (hnode : ∀ cells, (node cells).Answers cells (feeSearch svc.feeLock))
    (run : Trace (Deployment.Step P occupiedCapacity svc node) (.start cells) labels w) :
    Tracked P occupiedCapacity svc cells w := by
  have hstart : Tracked P occupiedCapacity svc cells (.start cells) := by
    refine ⟨rfl, List.nodup_nil, ?_, ?_, ?_, ?_⟩
    · intro c hc
      cases hc
    · intro c g hg
      cases hg
    · intro c g tx hsigned
      cases hsigned
    · intro c g tx after hsent
      cases hsent
  exact run.invariant (fun _ w => Tracked P occupiedCapacity svc cells w) hstart
    fun _ _ _ _ h hstep => h.step hnode hstep

/-! ## When both are committed -/

/-- The place of a client in the history is fixed. -/
theorem eq_of_concat_prefix {history p q : Broadcasts} {tx tx' : Transaction}
    (hnodup : (history.map Prod.fst).Nodup) (hp : p ++ [(c, tx)] <+: history)
    (hq : q ++ [(c, tx')] <+: history) : p = q ∧ tx = tx' := by
  obtain ⟨p', rfl⟩ := hp
  obtain ⟨q', hq'⟩ := hq
  have hsplit : q ++ (c, tx') :: q' = p ++ (c, tx) :: p' := by simpa using hq'
  rw [List.append_assoc, List.singleton_append, List.map_append, List.map_cons,
    List.nodup_middle] at hnodup
  have hout := (List.nodup_cons.mp hnodup).1
  -- whichever is the longer one holds the client twice
  rcases List.append_eq_append_iff.mp hsplit with ⟨m, hpm, hm⟩ | ⟨m, hqm, hm⟩
  · cases m with
    | nil =>
      obtain ⟨heq, -⟩ := List.cons.inj hm
      exact ⟨by rw [hpm, List.append_nil], (Prod.mk.inj heq).2.symm⟩
    | cons e m =>
      obtain ⟨rfl, -⟩ := List.cons.inj hm
      exact absurd (by simp [hpm]) hout
  · cases m with
    | nil =>
      obtain ⟨heq, -⟩ := List.cons.inj hm
      exact ⟨by rw [hqm, List.append_nil], (Prod.mk.inj heq).2⟩
    | cons e m =>
      obtain ⟨rfl, hp'⟩ := List.cons.inj hm
      exact absurd (by simp [hp']) hout

/-- Of two clients, at most one other has broadcast. -/
theorem eq_nil_or_singleton {history : Broadcasts} (hnodup : (history.map Prod.fst).Nodup)
    (hc : c ∉ history.map Prod.fst) : history = [] ∨ ∃ d tx, d ≠ c ∧ history = [(d, tx)] := by
  match history with
  | [] => exact Or.inl rfl
  | [(d, tx)] =>
    refine Or.inr ⟨d, tx, ?_, rfl⟩
    rintro rfl
    exact hc List.mem_cons_self
  | (d, tx) :: (d', tx') :: rest =>
    have hne : d ≠ d' := fun h => (List.nodup_cons.mp hnodup).1 (h ▸ List.mem_cons_self)
    have hdc : d ≠ c := fun h => hc (h ▸ List.mem_cons_self)
    have hdc' : d' ≠ c := fun h => hc (h ▸ List.mem_cons_of_mem _ List.mem_cons_self)
    cases c <;> cases d <;> cases d' <;> simp_all

section Sent

variable {g g' : Grant} {tx tx' : Transaction} {after after' : Broadcasts}

/-- Between the grant of a client and its broadcast, at most the other client broadcasts. -/
theorem Tracked.after_eq (h : Tracked P occupiedCapacity svc cells w)
    (hsent : w.phase c = .sent g tx after) :
    after = [] ∨ ∃ d t, d ≠ c ∧ after = [(d, t)] := by
  have hplace := (h.sent c g tx after hsent).2.2
  have hnodup : ((after ++ [(c, tx)]).map Prod.fst).Nodup :=
    h.once.sublist (hplace.sublist.map Prod.fst)
  rw [List.map_append, List.nodup_append] at hnodup
  have hc : c ∉ after.map Prod.fst :=
    fun hmem => hnodup.2.2 c hmem c (List.mem_singleton.mpr rfl) rfl
  exact eq_nil_or_singleton hnodup.1 hc

/-- Who broadcast before another did so on the initial chain. -/
theorem Tracked.first_of_mem {t : Transaction} (h : Tracked P occupiedCapacity svc cells w)
    (hsent : w.phase c = .sent g tx after) (hsent' : w.phase d = .sent g' tx' after')
    (hmem : (d, t) ∈ after) : after' = [] ∧ t = tx' := by
  have hplace := (h.sent c g tx after hsent).2.2
  have hplace' := (h.sent d g' tx' after' hsent').2.2
  rcases h.after_eq hsent with rfl | ⟨d', t', -, rfl⟩
  · cases hmem
  · obtain ⟨rfl, rfl⟩ := Prod.mk.inj (List.mem_singleton.mp hmem)
    have hfirst : [] ++ [(d, t)] <+: w.history := (List.prefix_append _ _).trans hplace
    obtain ⟨hafter, htx⟩ := eq_of_concat_prefix h.once hfirst hplace'
    exact ⟨hafter.symm, htx⟩

/-- The fee input is still live when the transaction is broadcast, unless the other client's
transaction was committed since the grant and spends it. -/
theorem Tracked.isLive_feeInput_iff (h : Tracked P occupiedCapacity svc cells w)
    (hsent : w.phase c = .sent g tx after) :
    (cells.replay P after).isLive g.out.feeInput = true ↔
      ∀ e ∈ after, e ∈ g.after ∨ ¬ (cells.commits e.2 = true ∧ g.out.feeInput ∈ spends e.2) := by
  have hgranted := (h.sent c g tx after hsent).2.1
  obtain ⟨-, hfrom⟩ := h.grant c g (by rw [hsent]; rfl)
  have hlive := hfrom.isLive
  rcases h.after_eq hsent with rfl | ⟨d, t, -, rfl⟩
  · rw [List.prefix_nil.mp hgranted] at hlive
    refine iff_of_true hlive fun e he => ?_
    cases he
  · rcases List.prefix_concat_iff.mp (show g.after <+: [] ++ [(d, t)] from hgranted) with
      hafter | hafter
    · -- the grant saw the other transaction
      rw [hafter] at hlive ⊢
      exact iff_of_true hlive fun e he => Or.inl he
    · rw [List.prefix_nil.mp hafter] at hlive ⊢
      have hunspent := @LiveCells.isLive_receive P cells t _ hlive
      show (cells.receive P t).isLive _ = true ↔ _
      rw [hunspent]
      simp

/-- A sponsored transaction is committed exactly when the client's own inputs and the fee input are
live. -/
theorem commits_iff {chain : LiveCells}
    (hfrom : spends g.out.tx = spends g.base ++ [g.out.feeInput]) (hraw : tx.raw = g.out.tx.raw) :
    chain.commits tx = true ↔
      (∀ op ∈ spends g.base, chain.isLive op = true) ∧ chain.isLive g.out.feeInput = true := by
  have hspends : spends tx = spends g.base ++ [g.out.feeInput] := by
    rw [← hfrom, spends, hraw]
    rfl
  rw [LiveCells.commits, hspends, List.all_append, Bool.and_eq_true, List.all_eq_true,
    List.all_cons, List.all_nil, Bool.and_true]

end Sent

end Invariant

/-- **Two sponsorships.** In every interleaving of the two clients' steps, each grant consumes the
first cell that the collector's search shows on the chain of its time and that covers the request,
and that chain is the initial one after the broadcasts before it. When both have broadcast, both
transactions are committed exactly when each client's own inputs are live as its transaction
arrives, and neither spends the fee input of a client that was granted before and broadcasts
after. -/
theorem both_committed_iff (P : Platform) (occupiedCapacity : CellOutput → U64)
    (svc : SponsorService) (node : LiveCells → HttpCkbRpc)
    (hnode : ∀ cells, (node cells).Answers cells (feeSearch svc.feeLock)) (cells : LiveCells)
    (labels : List (Client × Action)) (w : Deployment)
    (run : Trace (Deployment.Step P occupiedCapacity svc node) (.start cells) labels w) :
    (∀ c g, (w.phase c).grant? = some g → g.after <+: w.history ∧
      ((cells.replay P g.after).collected svc.feeLock
        (svc.needed P occupiedCapacity g.base)).map Prod.fst = some g.out.feeInput) ∧
    ∀ (g : Client → Grant) (tx : Client → Transaction) (after : Client → Broadcasts),
      (∀ c, w.phase c = .sent (g c) (tx c) (after c)) →
      ((∀ c, (cells.replay P (after c)).commits (tx c) = true) ↔
        ∀ c, (∀ op ∈ spends (g c).base, (cells.replay P (after c)).isLive op = true) ∧
          ∀ d, (d, tx d) ∈ after c →
            (d, tx d) ∈ (g c).after ∨ (g c).out.feeInput ∉ spends (tx d)) := by
  have h := tracked_of_trace hnode run
  refine ⟨fun c g hg => ⟨(h.grant c g hg).1, (h.grant c g hg).2.found⟩, ?_⟩
  intro g tx after hsent
  -- committed: what the client spends is live, and so is the fee cell
  have hcommits : ∀ c, (cells.replay P (after c)).commits (tx c) = true ↔
      (∀ op ∈ spends (g c).base, (cells.replay P (after c)).isLive op = true) ∧
        (cells.replay P (after c)).isLive (g c).out.feeInput = true := by
    intro c
    obtain ⟨-, hfrom⟩ := h.grant c (g c) (by rw [hsent]; rfl)
    exact commits_iff hfrom.spends (h.sent c _ _ _ (hsent c)).1
  constructor
  · intro hall c
    obtain ⟨hown, hfee⟩ := (hcommits c).mp (hall c)
    refine ⟨hown, fun d hd => ?_⟩
    rcases (h.isLive_feeInput_iff (hsent c)).mp hfee (d, tx d) hd with hseen | hnot
    · exact Or.inl hseen
    · -- the other transaction came first, and was committed
      obtain ⟨hfirst, -⟩ := h.first_of_mem (hsent c) (hsent d) hd
      have hcommitted := hall d
      rw [hfirst] at hcommitted
      exact Or.inr fun hspent => hnot ⟨hcommitted, hspent⟩
  · intro hall c
    obtain ⟨hown, hclash⟩ := hall c
    refine (hcommits c).mpr ⟨hown, (h.isLive_feeInput_iff (hsent c)).mpr ?_⟩
    rintro ⟨d, t⟩ he
    obtain ⟨-, rfl⟩ := h.first_of_mem (hsent c) (hsent d) he
    exact (hclash d he).imp_right fun hnot hspent => hnot hspent.2

/-! ### Two clients of the shop

The wallet has two cells that either request could use. Granted one after the other's broadcast,
both transfers are committed; granted side by side, they get the same fee cell. -/

def leftOutPoint : OutPoint := ⟨sampleHash 3, 0⟩

def rightOutPoint : OutPoint := ⟨sampleHash 4, 0⟩

def clientCells : LiveCells :=
  relayerCells ++
    [(leftOutPoint, ⟨⟨50000000000, strangerLock, none⟩, []⟩),
      (rightOutPoint, ⟨⟨50000000000, strangerLock, none⟩, []⟩)]

def leftGrant : Grant :=
  ⟨transfer leftOutPoint strangerLock, sponsoredTransfer leftOutPoint strangerLock, []⟩

def rightGrant : Grant :=
  ⟨transfer rightOutPoint strangerLock, sponsoredTransfer rightOutPoint strangerLock, []⟩

/-- The grant that the right client gets after the left one's broadcast. -/
def laterGrant : Grant where
  base := transfer rightOutPoint strangerLock
  out :=
    { tx := appendFee (transfer rightOutPoint strangerLock) relayerOutPoint
        ⟨49999999000, sampleShop, none⟩ []
      fee := 1000
      feeInput := relayerOutPoint
      subject := "player-1" }
  after := [(.left, leftGrant.out.tx)]

abbrev ShopStep : Deployment → Client × Action → Deployment → Prop :=
  Deployment.Step .sample plainOccupied shopService (prefixIndexer sampleShop)

theorem sponsors_left : (shopService.onNode (prefixIndexer sampleShop clientCells)).sponsor .sample
    plainOccupied [] leftGrant.base 1700000000 = .ok leftGrant.out :=
  shopService_sponsors_transfer
    (e := (feeOutPoint, ⟨⟨10000000000, sampleShop, none⟩, []⟩)) (by decide +kernel)
    (by decide +kernel) (by decide)

theorem sponsors_right : (shopService.onNode (prefixIndexer sampleShop clientCells)).sponsor .sample
    plainOccupied [] rightGrant.base 1700000000 = .ok rightGrant.out :=
  shopService_sponsors_transfer
    (e := (feeOutPoint, ⟨⟨10000000000, sampleShop, none⟩, []⟩)) (by decide +kernel)
    (by decide +kernel) (by decide)

theorem sponsors_later : (shopService.onNode (prefixIndexer sampleShop
    (clientCells.receive .sample leftGrant.out.tx))).sponsor .sample plainOccupied []
      laterGrant.base 1700000000 = .ok laterGrant.out :=
  shopService_sponsors_transfer
    (e := (relayerOutPoint, ⟨⟨50000000000, sampleShop, none⟩, []⟩)) (by decide +kernel)
    (by decide +kernel) (by decide)

/-- The right client asks after the left one's transaction is committed. -/
theorem run_oneAfterTheOther : ∃ labels w, Trace ShopStep (.start clientCells) labels w ∧
    w.phase .left = .sent leftGrant leftGrant.out.tx [] ∧
    w.phase .right = .sent laterGrant laterGrant.out.tx laterGrant.after := by
  have leftGranted : Trace ShopStep (.start clientCells) _ _ :=
    .single (.sponsored (c := .left) rfl sponsors_left)
  have leftSigned := leftGranted.snoc (.signed (c := .left) rfl rfl)
  have leftSent := leftSigned.snoc (.broadcast (c := .left) rfl)
  have rightGranted := leftSent.snoc (.sponsored (c := .right) rfl sponsors_later)
  have rightSigned := rightGranted.snoc (.signed (c := .right) rfl rfl)
  exact ⟨_, _, rightSigned.snoc (.broadcast (c := .right) rfl), rfl, rfl⟩

/-- Both clients ask before either broadcasts. -/
theorem run_sideBySide : ∃ labels w, Trace ShopStep (.start clientCells) labels w ∧
    w.phase .left = .sent leftGrant leftGrant.out.tx [] ∧
    w.phase .right = .sent rightGrant rightGrant.out.tx [(.left, leftGrant.out.tx)] := by
  have leftGranted : Trace ShopStep (.start clientCells) _ _ :=
    .single (.sponsored (c := .left) rfl sponsors_left)
  have rightGranted := leftGranted.snoc (.sponsored (c := .right) rfl sponsors_right)
  have leftSigned := rightGranted.snoc (.signed (c := .left) rfl rfl)
  have rightSigned := leftSigned.snoc (.signed (c := .right) rfl rfl)
  have leftSent := rightSigned.snoc (.broadcast (c := .left) rfl)
  exact ⟨_, _, leftSent.snoc (.broadcast (c := .right) rfl), rfl, rfl⟩

/-- Either request could use either cell. -/
theorem two_usable : ∀ g ∈ [leftGrant, rightGrant], ∃ e e', e ≠ e' ∧
    Usable clientCells sampleShop (shopService.needed .sample plainOccupied g.base) e ∧
    Usable clientCells sampleShop (shopService.needed .sample plainOccupied g.base) e' := by
  have hneeded : ∀ g ∈ [leftGrant, rightGrant],
      (shopService.needed .sample plainOccupied g.base).toNat ≤ 10000000000 := by decide +kernel
  intro g hg
  have hle := hneeded g hg
  refine ⟨(feeOutPoint, ⟨⟨10000000000, sampleShop, none⟩, []⟩),
    (relayerOutPoint, ⟨⟨50000000000, sampleShop, none⟩, []⟩), by decide, ?_, ?_⟩
  · exact ⟨List.mem_cons_self, rfl, rfl, rfl, hle⟩
  · exact ⟨List.mem_cons_of_mem _ List.mem_cons_self, rfl, rfl, rfl, hle.trans (by decide)⟩

/-- The wallet has two cells that either request could use, both clients' own inputs are live, and
yet both grants consume the same fee cell: only one of the two transactions is committed. -/
theorem same_fee_input_twice :
    (∀ g ∈ [leftGrant, rightGrant], ∃ e e', e ≠ e' ∧
      Usable clientCells sampleShop (shopService.needed .sample plainOccupied g.base) e ∧
      Usable clientCells sampleShop (shopService.needed .sample plainOccupied g.base) e') ∧
    ∃ labels w, Trace ShopStep (.start clientCells) labels w ∧
      w.phase .left = .sent leftGrant leftGrant.out.tx [] ∧
      w.phase .right = .sent rightGrant rightGrant.out.tx [(.left, leftGrant.out.tx)] ∧
      leftGrant.after = [] ∧ rightGrant.after = [] ∧
      leftGrant.out.feeInput = rightGrant.out.feeInput ∧
      clientCells.commits leftGrant.out.tx = true ∧
      (∀ op ∈ spends rightGrant.base,
        (clientCells.replay .sample [(.left, leftGrant.out.tx)]).isLive op = true) ∧
      (clientCells.replay .sample [(.left, leftGrant.out.tx)]).commits rightGrant.out.tx =
        false := by
  refine ⟨two_usable, ?_⟩
  obtain ⟨labels, w, run, hleft, hright⟩ := run_sideBySide
  exact ⟨labels, w, run, hleft, hright, rfl, rfl, rfl, by decide +kernel, by decide +kernel,
    by decide +kernel⟩

def serialGrant : Client → Grant
  | .left => leftGrant
  | .right => laterGrant

theorem both_committed_iff_oneAfterTheOther :
    clientCells.commits leftGrant.out.tx = true ∧
      (clientCells.replay .sample laterGrant.after).commits laterGrant.out.tx = true := by
  obtain ⟨labels, w, run, hleft, hright⟩ := run_oneAfterTheOther
  have hsent : ∀ c, w.phase c =
      .sent (serialGrant c) (serialGrant c).out.tx (serialGrant c).after := by
    intro c
    cases c with
    | left => exact hleft
    | right => exact hright
  have hcommits := ((both_committed_iff .sample plainOccupied shopService (prefixIndexer sampleShop)
    (answers_prefixIndexer sampleShop) clientCells labels w run).2 serialGrant
      (fun c => (serialGrant c).out.tx) (fun c => (serialGrant c).after) hsent).mpr ?_
  · exact ⟨hcommits .left, hcommits .right⟩
  · intro c
    refine ⟨?_, fun d hd => Or.inl hd⟩
    cases c with
    | left => decide +kernel
    | right => decide +kernel

end CkbController.PaymasterService
