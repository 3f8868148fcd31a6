import CkbController.GameCell.Advance
import CkbController.PaymasterService.OperatorNode
import CkbController.PaymasterService.Sighash
import CkbController.PaymasterService.Startup

/-!
# Operators on one chain

Nothing in the repository keeps a second operator of a game from running, with the same key, next
to the first: nor a `game grow` from the command line, a crash, or an answer of the node that is
lost. This module lets all of that happen in any order. Each operator has its own tip and queue;
the chain is one.

* `Fleet.Step` — one event: somebody settles a transaction, an operator starts, takes an intent,
  or flushes and is refused or taken;
* `Inv` — each tip is a cell that has been on the chain, with its board;
* `fleet_safe` — what an operator has acknowledged is on the chain, once; a tip that is live has
  the board of everything that was played; an operator whose tip is gone does nothing until it is
  restarted.
-/

namespace CkbController.PaymasterService

open ByteCodec Checks GameRules GameCell GameServer Oldest

/-! ## The finalizer -/

/-- The finalizer keeps the transaction but for a lock field in witness 0. -/
structure Finalizes (P : Platform) (finalize : Transaction → Except String Transaction) :
    Prop where
  raw : ∀ tx signed, finalize tx = .ok signed → signed.raw = tx.raw
  witness : ∀ tx signed, finalize tx = .ok signed → ∀ inputType outputType,
    tx.witnesses[0]? = some (P.witnessArgsSlice ⟨none, inputType, outputType⟩) →
    ∃ lock, (∀ bytes ∈ lock, bytes.length ≤ 65) ∧
      signed.witnesses[0]? = some (P.witnessArgsSlice ⟨lock, inputType, outputType⟩)

/-- Without a chain nothing is signed. -/
theorem finalizes_ok (P : Platform) : Finalizes P .ok where
  raw tx signed h := by
    cases h
    rfl
  witness tx signed h inputType outputType hslot := by
    cases h
    exact ⟨none, fun _ hbytes => (by cases hbytes), hslot⟩

/-- Signing the whole transaction is a finalizer: it only writes the lock's witness field. -/
theorem finalizes_signSighashAll {SecretKey : Type _} (S : Signer SecretKey) {P : Platform}
    (hread : P.ReadsWitnesses) (sk : SecretKey) :
    Finalizes P (fun tx => signSighashAll S P tx sk) := by
  have hshape : ∀ tx signed, signSighashAll S P tx sk = .ok signed → ∃ witness0 witnesses args,
      tx.witnesses = witness0 :: witnesses ∧ P.witnessArgsFromSlice witness0 = some args ∧
        signed = { tx with
          witnesses := P.witnessArgsSlice
              { args with lock := some (S.sig65 sk (sighashMessage P tx args)).toList } ::
            witnesses } := by
    intro tx signed h
    cases hw : tx.witnesses with
    | nil =>
      unfold signSighashAll at h
      rw [hw] at h
      cases h
    | cons witness0 witnesses =>
      cases hargs : P.witnessArgsFromSlice witness0 with
      | none =>
        unfold signSighashAll at h
        rw [hw] at h
        simp only [hargs] at h
        cases h
      | some args =>
        rw [signSighashAll_eq sk hw hargs] at h
        cases h
        exact ⟨witness0, witnesses, args, rfl, hargs, rfl⟩
  constructor
  · intro tx signed h
    obtain ⟨witness0, witnesses, args, -, -, rfl⟩ := hshape tx signed h
    rfl
  · intro tx signed h inputType outputType hslot
    obtain ⟨witness0, witnesses, args, hw, hargs, rfl⟩ := hshape tx signed h
    rw [hw] at hslot
    cases hslot
    -- the arguments that were read are those that were written
    obtain rfl := hread.faithful _ _ hargs
    refine ⟨_, fun bytes hbytes => ?_, rfl⟩
    cases hbytes
    exact Nat.le_of_eq (List.Vector.toList_length _)

/-! ## The fleet -/

/-- What happens. The number is the operator's. -/
inductive Fleet.Action where
  | settle (rtx : ResolvedTx)
  | start (k : Nat)
  | submit (k : Nat) (intent : Intent)
  /-- Nothing is sent, or the node does not take it. -/
  | refuse (k : Nat)
  | take (k : Nat) (rtx : ResolvedTx)

/-- What the event puts on the chain. -/
def Fleet.Action.settled : Fleet.Action → List ResolvedTx
  | settle rtx => [rtx]
  | start _ => []
  | submit _ _ => []
  | refuse _ => []
  | take _ rtx => [rtx]

def settled (actions : List Fleet.Action) : List ResolvedTx := actions.flatMap Fleet.Action.settled

structure Fleet where
  history : History OutPoint Cell
  operators : Nat → Option GameOperator
  /-- The intents in the batches that an operator was told are taken, oldest first. -/
  acknowledged : List Intent

/-- The chain moves on. -/
def Fleet.settle (f : Fleet) (now : Chain OutPoint Cell) : Fleet :=
  { f with history := ⟨f.history.views, now⟩ }

def Fleet.setOperator (f : Fleet) (k : Nat) (op : GameOperator) : Fleet :=
  { f with operators := Function.update f.operators k (some op) }

def Fleet.acknowledge (f : Fleet) (batch : List Intent) : Fleet :=
  { f with acknowledged := f.acknowledged ++ batch }

section Step

variable (P : Platform) (codeHash gameId : Byte32)
  (finalize : Transaction → Except String Transaction)

/-- The type script of the game. -/
abbrev gameType : Script := GameOperator.gameTypeScript codeHash hashTypeData2 gameId

inductive Fleet.Step (f : Fleet) : Fleet.Action → Fleet → Prop where
  | settle {rtx : ResolvedTx} {now : Chain OutPoint Cell}
      (code : CodeStep P (gameType codeHash gameId) f.history.now rtx now) :
      Fleet.Step f (.settle rtx) (f.settle now)
  /-- The node that is asked may lag behind. -/
  | start {k : Nat} {rpc : CellRpc} {rt : Runtime} {cellDeps : List CellDep} {fee : U64}
      {v : Chain OutPoint Cell} {op : GameOperator} (view : v ∈ f.history.views)
      (answers : rpc.AnswersFor v (gameType codeHash gameId))
      (started : startOperator rpc rt codeHash gameId cellDeps fee = .ok op) :
      Fleet.Step f (.start k) (f.setOperator k op)
  | submit {k : Nat} {op : GameOperator} (intent : Intent) (running : f.operators k = some op) :
      Fleet.Step f (.submit k intent)
        (f.setOperator k ((GameOperator.submit intent).call op).2)
  | refuse {k : Nat} {op : GameOperator} {reply : Reply} (running : f.operators k = some op)
      (refused : op.signedTx P finalize = none ∨ reply.accepts = false) :
      Fleet.Step f (.refuse k)
        (f.setOperator k (flushOrShed P (reply.answer P) finalize op).2)
  /-- The node takes the transaction. Its answer may be lost, and then nobody is told. -/
  | take {k : Nat} {op : GameOperator} {reply : Reply} {rtx : ResolvedTx}
      {now : Chain OutPoint Cell} (running : f.operators k = some op)
      (sent : op.signedTx P finalize = some rtx.tx) (accepts : reply.accepts = true)
      (code : CodeStep P (gameType codeHash gameId) f.history.now rtx now) :
      Fleet.Step f (.take k rtx)
        (((f.settle now).setOperator k (flushOrShed P (reply.answer P) finalize op).2).acknowledge
          (if (flushOrShed P (reply.answer P) finalize op).1.isOk then op.mempool else []))

end Step

/-! ## One flush that the node takes -/

/-- The tip is a cell that has been on the chain, and its board. -/
structure KnownTip (ty : Script) (C : Chain OutPoint Cell) (op : GameOperator) : Prop where
  known : ∃ c, (op.tip.outPoint, c) ∈ C.log ∧ c.output = op.tip.output ∧
    c.output.type = some ty ∧ GameState.decode c.data = .ok op.tip.state

section Take

variable {P : Platform} {ty : Script} {finalize : Transaction → Except String Transaction}
  {op op' : GameOperator} {t : Transition} {signed : Transaction} {rtx : ResolvedTx}
  {C C' : Chain OutPoint Cell} {reply : Reply} {txs : List ResolvedTx}

/-- What a flush sends is built and finalized. -/
theorem exists_built (h : op.signedTx P finalize = some signed) :
    ∃ t, op.buildTransition P = .ok t ∧ finalize t.tx = .ok signed := by
  unfold GameOperator.signedTx at h
  obtain ⟨t, ht, hsigned⟩ := Option.bind_eq_some_iff.mp h
  cases hbuild : op.buildTransition P with
  | error e =>
    rw [hbuild] at ht
    cases ht
  | ok t' =>
    rw [hbuild] at ht
    cases ht
    cases hfinal : finalize t.tx with
    | error m =>
      rw [hfinal] at hsigned
      cases hsigned
    | ok signed' =>
      rw [hfinal] at hsigned
      cases hsigned
      exact ⟨t, rfl, hfinal⟩

/-- A flush that the node does not take leaves the tip. -/
theorem tip_of_refused (h : op.signedTx P finalize = none ∨ reply.accepts = false) :
    (flushOrShed P (reply.answer P) finalize op).2.tip = op.tip := by
  have hflushed := @flushed_flushOrShed P (reply.answer P) finalize op
  generalize (flushOrShed P (reply.answer P) finalize op).1 = result at hflushed
  generalize (flushOrShed P (reply.answer P) finalize op).2 = op' at hflushed ⊢
  cases hflushed with
  | notBuilt build => rfl
  | notFinalized build final => rfl
  | shed build final send => rfl
  | advanced build final send =>
    rcases h with hnone | hrejects
    · rw [signedTx_eq_some build final] at hnone
      cases hnone
    · rw [(Reply.answer_eq_ok.mp send).1] at hrejects
      cases hrejects

/-- Acknowledged, the operator advances; otherwise it drops the queue that it has lost sight of. -/
theorem flushOrShed_taken (hbuild : op.buildTransition P = .ok t)
    (hfinal : finalize t.tx = .ok signed) (haccepts : reply.accepts = true) :
    (flushOrShed P (reply.answer P) finalize op = (.ok (P.txHash signed.raw),
        op.advance t (P.txHash signed.raw))) ∨
      ∃ m, flushOrShed P (reply.answer P) finalize op = (.error (.rpc m), op.dropPending) := by
  cases reply with
  | acknowledged =>
    left
    unfold flushOrShed
    rw [GameOperator.flush_sent hbuild hfinal rfl]
  | rejected m => cases haccepts
  | lost m =>
    right
    refine ⟨m, ?_⟩
    unfold flushOrShed
    rw [GameOperator.flush_notSent hbuild hfinal rfl]

/-- **What is taken advances the tip.** The tip was live, and the type script has played the queue
on it. -/
theorem advances_of_taken (hfinalizes : Finalizes P finalize) (hknown : KnownTip ty C op)
    (hbuild : op.buildTransition P = .ok t) (hfinal : finalize t.tx = .ok rtx.tx)
    (code : CodeStep P ty C rtx C') :
    ∃ c lock, C.cells op.tip.outPoint = some c ∧ verify P (.ofType P rtx ty) = .ok () ∧
      Advances P ty rtx c t.nextCell lock op.mempool ∧
      (⟨P.txHash rtx.tx.raw, 0⟩, t.nextCell) ∈ rtx.created P ∧
      t.nextOutput.type = some ty := by
  obtain ⟨-, -, -, hnext, htx, -⟩ := GameOperator.buildTransition_eq_ok.mp hbuild
  obtain ⟨c, hlog, houtput, htype, -⟩ := hknown.known
  have hraw : rtx.tx.raw = (op.transitionTx P t.nextOutput t.nextState).raw := by
    rw [hfinalizes.raw _ _ hfinal, htx]
  -- the one input resolves to the cell of the tip
  obtain ⟨d, hd⟩ : ∃ d, rtx.inputCells = [d] := by
    have hlen := rtx.inputs_resolved
    rw [hraw] at hlen
    exact List.length_eq_one_iff.mp hlen
  have hspent : (op.tip.outPoint, d) ∈ rtx.spent := by
    unfold ResolvedTx.spent
    rw [hraw, hd]
    exact List.mem_singleton_self _
  have hlive : C.cells op.tip.outPoint = some d := code.step.commits.live_of_mem hspent
  obtain rfl : d = c := C.eq_of_mem_log (C.logged _ _ hlive) hlog
  have hnextType : t.nextOutput.type = some ty := by
    rw [hnext]
    exact houtput ▸ htype
  have hcells : rtx.outputCells = [t.nextCell] := by
    unfold ResolvedTx.outputCells
    rw [hraw]
    rfl
  have hcarries : Vm.carries P ty d = true := Vm.carries_of_type htype
  have hcarries' : Vm.carries P ty t.nextCell = true := Vm.carries_of_type hnextType
  obtain ⟨lock, hsmall, hslot⟩ := hfinalizes.witness _ _ hfinal (some (encodeBatch op.mempool)) none
    (by rw [htx]; rfl)
  refine ⟨d, lock, hlive, ?_, ⟨?_, ?_, ⟨0, ?_, hslot⟩, hsmall⟩, ?_, hnextType⟩
  · refine code.accepted ty (Script.sameCode_self ty) ⟨d, ?_, htype⟩
    rw [hd]
    exact List.mem_cons_self
  · rw [Vm.groupInputCells_ofType, hd, List.filter_cons_of_pos hcarries, List.filter_nil]
  · rw [Vm.groupOutputCells_ofType, hcells, List.filter_cons_of_pos hcarries', List.filter_nil]
  · show rtx.inputCells.findIdx? (Vm.carries P ty) = some 0
    rw [hd, List.findIdx?_cons, hcarries]
    rfl
  · unfold ResolvedTx.created
    rw [hcells]
    exact List.mem_singleton_self _

/-- The moves an accepted transaction applies are those of its batch. -/
theorem appliedBy_of_advances {c c' : Cell} {lock : Option Bytes} {batch : List Intent}
    (hread : P.ReadsWitnesses) (hok : verify P (.ofType P rtx ty) = .ok ())
    (h : Advances P ty rtx c c' lock batch) : appliedBy P ty rtx = batch := by
  rcases verify_ok hok with ⟨d, hgenesis⟩ | ⟨d, d', loaded, htransition⟩
  · have := hgenesis.inputs.symm.trans h.inputs
    cases this
  · obtain ⟨-, hloaded⟩ := (h.loadBatch_eq_ok hread).mp htransition.loaded
    unfold appliedBy
    rw [h.inputs, if_neg (List.cons_ne_nil _ _), htransition.loaded, hloaded]
    rfl

/-- The operator's tip after a flush that the node takes. -/
theorem KnownTip.taken (hread : P.ReadsWitnesses) (hfinalizes : Finalizes P finalize)
    (hargs : ty.args.length = gameIdLen) (hknown : KnownTip ty C op)
    (hsent : op.signedTx P finalize = some rtx.tx) (haccepts : reply.accepts = true)
    (code : CodeStep P ty C rtx C') :
    KnownTip ty C' (flushOrShed P (reply.answer P) finalize op).2 := by
  obtain ⟨t, hbuild, hfinal⟩ := exists_built hsent
  obtain ⟨c, lock, hlive, hok, hadv, hcreated, htype⟩ :=
    advances_of_taken hfinalizes hknown hbuild hfinal code
  rcases flushOrShed_taken hbuild hfinal haccepts with hflush | ⟨m, hflush⟩
  · obtain ⟨-, -, s, s', out, -, hout, -, -⟩ := (hadv.verify_iff hread hargs).mp hok
    rw [hflush]
    refine ⟨t.nextCell, ?_, rfl, htype, ?_⟩
    · show (⟨P.txHash rtx.tx.raw, 0⟩, t.nextCell) ∈ C'.log
      rw [code.step.log]
      exact List.mem_append_right _ hcreated
    · exact GameState.decode_encode (GameState.lt_of_decode_encode hout)
  · obtain ⟨d, hlog, hd⟩ := hknown.known
    rw [hflush]
    exact ⟨d, code.step.mem_log hlog, hd⟩

end Take

/-! ## The invariant -/

section Invariant

variable {P : Platform} {codeHash gameId : Byte32}
  {finalize : Transaction → Except String Transaction} {f f' : Fleet} {a : Fleet.Action}
  {txs : List ResolvedTx}

/-- The invariant of a fleet. -/
structure Fleet.Inv (P : Platform) (codeHash gameId : Byte32) (txs : List ResolvedTx)
    (f : Fleet) : Prop where
  chain : OnChain P (gameType codeHash gameId) txs f.history.now
  views : ∀ v ∈ f.history.views, (∃ txs, OnChain P (gameType codeHash gameId) txs v) ∧
    v.log ⊆ f.history.now.log
  tips : ∀ k op, f.operators k = some op →
    KnownTip (gameType codeHash gameId) f.history.now op
  acknowledged : f.acknowledged.Sublist (applied P (gameType codeHash gameId) txs)

theorem length_gameType_args : (gameType codeHash gameId).args.length = gameIdLen :=
  gameId.toList_length

/-- An operator that changes its queue only. -/
theorem KnownTip.congr {ty : Script} {C : Chain OutPoint Cell} {op op' : GameOperator}
    (h : KnownTip ty C op) (htip : op'.tip = op.tip) : KnownTip ty C op' := by
  obtain ⟨c, hc⟩ := h.known
  exact ⟨c, htip ▸ hc⟩

theorem KnownTip.mono {ty : Script} {C C' : Chain OutPoint Cell} {op : GameOperator}
    (h : KnownTip ty C op) (hlog : C.log ⊆ C'.log) : KnownTip ty C' op := by
  obtain ⟨c, hmem, hc⟩ := h.known
  exact ⟨c, hlog hmem, hc⟩

/-- The operators of a fleet after one of them has changed. -/
theorem tips_setOperator {ty : Script} {C : Chain OutPoint Cell} {k : Nat} {op : GameOperator}
    {operators : Nat → Option GameOperator}
    (h : ∀ j op, operators j = some op → KnownTip ty C op) (hop : KnownTip ty C op) :
    ∀ j op', Function.update operators k (some op) j = some op' → KnownTip ty C op' := by
  intro j op' hj
  by_cases hjk : j = k
  · subst hjk
    rw [Function.update_self] at hj
    cases hj
    exact hop
  · rw [Function.update_of_ne hjk] at hj
    exact h j op' hj

/-- What an operator loads on any view of the chain is known. -/
theorem knownTip_of_start {rpc : CellRpc} {rt : Runtime} {cellDeps : List CellDep} {fee : U64}
    {v : Chain OutPoint Cell} {op : GameOperator}
    (hon : OnChain P (gameType codeHash gameId) txs v)
    (answers : rpc.AnswersFor v (gameType codeHash gameId))
    (started : startOperator rpc rt codeHash gameId cellDeps fee = .ok op) :
    KnownTip (gameType codeHash gameId) v op := by
  cases hfound : v.oldest (typed (gameType codeHash gameId)) with
  | none =>
    rw [startOperator_missing answers hfound] at started
    cases started
  | some e =>
    obtain ⟨hlive, htyped⟩ := Chain.mem_listed.mp (Chain.mem_listed_of_oldest hfound)
    have htype := type_of_typed hon length_gameType_args hlive htyped
    have hcarries : Vm.carries P (gameType codeHash gameId) e.2 = true := Vm.carries_of_type htype
    obtain ⟨state, hstate, -⟩ := (hon.accounts hlive hcarries).board
    rw [startOperator_found answers hfound hstate] at started
    cases started
    exact ⟨e.2, v.logged _ _ hlive, rfl, htype, hstate⟩

/-- The chain has moved on. -/
theorem views_settle {now : Chain OutPoint Cell} {rtx : ResolvedTx}
    (h : ∀ v ∈ f.history.views, (∃ txs, OnChain P (gameType codeHash gameId) txs v) ∧
      v.log ⊆ f.history.now.log)
    (hon : OnChain P (gameType codeHash gameId) txs now)
    (code : CodeStep P (gameType codeHash gameId) f.history.now rtx now) :
    ∀ v ∈ (f.settle now).history.views,
      (∃ txs, OnChain P (gameType codeHash gameId) txs v) ∧ v.log ⊆ now.log := by
  intro v hv
  rcases List.mem_cons.mp hv with rfl | hv
  · exact ⟨⟨txs, hon⟩, List.Subset.refl _⟩
  · exact ⟨(h v hv).1, fun e he => code.step.mem_log ((h v hv).2 he)⟩

/-- A process whose tip is known may replace another. -/
theorem Fleet.Inv.setOperator (hinv : f.Inv P codeHash gameId txs) (k : Nat) {op : GameOperator}
    (hop : KnownTip (gameType codeHash gameId) f.history.now op) :
    (f.setOperator k op).Inv P codeHash gameId txs :=
  ⟨hinv.chain, hinv.views, tips_setOperator hinv.tips hop, hinv.acknowledged⟩

/-- A transaction of the game's code keeps the invariant. -/
theorem Fleet.Inv.settle {now : Chain OutPoint Cell} {rtx : ResolvedTx}
    (hinv : f.Inv P codeHash gameId txs)
    (code : CodeStep P (gameType codeHash gameId) f.history.now rtx now) :
    (f.settle now).Inv P codeHash gameId (txs ++ [rtx]) := by
  have hon := hinv.chain.step code
  refine ⟨hon, views_settle hinv.views hon code, ?_, ?_⟩
  · exact fun k op hk => (hinv.tips k op hk).mono fun e he => code.step.mem_log he
  · rw [applied, List.flatMap_append]
    exact hinv.acknowledged.trans (List.sublist_append_left _ _)

/-- Submitting a move keeps the tip. -/
theorem tip_of_submit (op : GameOperator) (intent : Intent) :
    ((GameOperator.submit intent).call op).2.tip = op.tip := by
  rcases GameOperator.submit_cases op intent with ⟨e, hcall, -⟩ | ⟨_, _, -, -, hcall⟩
  · rw [hcall]
  · rw [hcall]
    rfl

/-- **One event.** -/
theorem Fleet.Inv.step (hread : P.ReadsWitnesses) (hfinalizes : Finalizes P finalize)
    (hinv : f.Inv P codeHash gameId txs) (h : f.Step P codeHash gameId finalize a f') :
    f'.Inv P codeHash gameId (txs ++ a.settled) := by
  cases h with
  | settle code => exact hinv.settle code
  | @start k rpc rt cellDeps fee v op view answers started =>
    obtain ⟨⟨txs', hon⟩, hlog⟩ := hinv.views v view
    rw [Fleet.Action.settled, List.append_nil]
    exact hinv.setOperator k ((knownTip_of_start hon answers started).mono hlog)
  | @submit k op intent running =>
    rw [Fleet.Action.settled, List.append_nil]
    exact hinv.setOperator k ((hinv.tips k op running).congr (tip_of_submit op intent))
  | @refuse k op reply running refused =>
    rw [Fleet.Action.settled, List.append_nil]
    exact hinv.setOperator k ((hinv.tips k op running).congr (tip_of_refused refused))
  | @take k op reply rtx now running sent accepts code =>
    have hknown := hinv.tips k op running
    have hsettled := hinv.settle code
    have hnext := hknown.taken hread hfinalizes length_gameType_args sent accepts code
    obtain ⟨hchain, hviews, htips, -⟩ := hsettled.setOperator k hnext
    refine ⟨hchain, hviews, htips, ?_⟩
    -- the batch that is acknowledged is the batch that the script has played
    obtain ⟨t, hbuild, hfinal⟩ := exists_built sent
    obtain ⟨c, lock, -, hok, hadv, -⟩ := advances_of_taken hfinalizes hknown hbuild hfinal code
    show (f.acknowledged ++ if _ then op.mempool else []).Sublist
      (applied P (gameType codeHash gameId) (txs ++ [rtx]))
    rw [applied, List.flatMap_append, List.flatMap_singleton,
      appliedBy_of_advances hread hok hadv]
    refine hinv.acknowledged.append ?_
    split
    · exact List.Sublist.refl _
    · exact List.nil_sublist _

/-! ## An operator whose tip is gone -/

/-- The operator runs with this tip, and the tip is not live. -/
structure Stranded (k : Nat) (tip : GameTip) (f : Fleet) : Prop where
  running : ∃ op, f.operators k = some op ∧ op.tip = tip
  gone : f.history.now.cells tip.outPoint = none

theorem operators_setOperator_of_ne {k j : Nat} {op : GameOperator} (h : j ≠ k) :
    (f.setOperator k op).operators j = f.operators j := Function.update_of_ne h _ _

theorem operators_setOperator_self {k : Nat} {op : GameOperator} :
    (f.setOperator k op).operators k = some op := Function.update_self _ _ _

/-- Out points do not come back. -/
theorem gone_settle {now : Chain OutPoint Cell} {rtx : ResolvedTx} {op : GameOperator}
    (hknown : KnownTip (gameType codeHash gameId) f.history.now op)
    (code : CodeStep P (gameType codeHash gameId) f.history.now rtx now)
    (hgone : f.history.now.cells op.tip.outPoint = none) :
    now.cells op.tip.outPoint = none := by
  obtain ⟨c, hlog, -⟩ := hknown.known
  exact code.step.gone hlog hgone

/-- **One event** does not help an operator whose tip is gone, unless it is its own restart; and
the event is not a transaction of its own. -/
theorem Stranded.step {k : Nat} {tip : GameTip} (hfinalizes : Finalizes P finalize)
    (hinv : f.Inv P codeHash gameId txs) (hstranded : Stranded k tip f)
    (h : f.Step P codeHash gameId finalize a f') (hnot : a ≠ .start k) :
    Stranded k tip f' ∧ ∀ rtx, a ≠ .take k rtx := by
  obtain ⟨⟨op, hop, rfl⟩, hgone⟩ := hstranded
  have hknown := hinv.tips k op hop
  cases h with
  | settle code =>
    exact ⟨⟨⟨op, hop, rfl⟩, gone_settle hknown code hgone⟩, fun _ h => (by cases h)⟩
  | @start j rpc rt cellDeps fee v op' view answers started =>
    have hne : k ≠ j := by
      rintro rfl
      exact hnot rfl
    refine ⟨⟨⟨op, ?_, rfl⟩, hgone⟩, fun _ h => (by cases h)⟩
    rw [operators_setOperator_of_ne hne]
    exact hop
  | @submit j op' intent running =>
    refine ⟨⟨?_, hgone⟩, fun _ h => (by cases h)⟩
    by_cases hkj : k = j
    · subst hkj
      obtain rfl : op = op' := Option.some.inj (hop.symm.trans running)
      exact ⟨_, operators_setOperator_self, tip_of_submit op intent⟩
    · rw [operators_setOperator_of_ne hkj]
      exact ⟨op, hop, rfl⟩
  | @refuse j op' reply running refused =>
    refine ⟨⟨?_, hgone⟩, fun _ h => (by cases h)⟩
    by_cases hkj : k = j
    · subst hkj
      obtain rfl : op = op' := Option.some.inj (hop.symm.trans running)
      exact ⟨_, operators_setOperator_self, tip_of_refused refused⟩
    · rw [operators_setOperator_of_ne hkj]
      exact ⟨op, hop, rfl⟩
  | @take j op' reply rtx now running sent accepts code =>
    have hne : k ≠ j := by
      -- its own transaction would have spent a cell that is not live
      rintro rfl
      obtain rfl : op = op' := Option.some.inj (hop.symm.trans running)
      obtain ⟨t, hbuild, hfinal⟩ := exists_built sent
      obtain ⟨c, lock, hlive, -⟩ := advances_of_taken hfinalizes hknown hbuild hfinal code
      rw [hgone] at hlive
      cases hlive
    refine ⟨⟨⟨op, ?_, rfl⟩, gone_settle hknown code hgone⟩, fun rtx' h => ?_⟩
    · show (((f.settle now).setOperator j _).acknowledge _).operators k = some op
      exact (operators_setOperator_of_ne hne).trans hop
    · cases h
      exact hne rfl

theorem settled_append (as bs : List Fleet.Action) :
    settled (as ++ bs) = settled as ++ settled bs :=
  List.flatMap_append

/-- **A run.** -/
theorem Fleet.Inv.run (hread : P.ReadsWitnesses) (hfinalizes : Finalizes P finalize)
    (hinv : f.Inv P codeHash gameId txs) {actions : List Fleet.Action}
    (run : Trace (Fleet.Step P codeHash gameId finalize) f actions f') :
    f'.Inv P codeHash gameId (txs ++ settled actions) := by
  refine run.invariant (fun actions f => f.Inv P codeHash gameId (txs ++ settled actions)) ?_ ?_
  · rw [settled, List.flatMap_nil, List.append_nil]
    exact hinv
  · intro actions f a f' ih step
    rw [settled_append, ← List.append_assoc, settled, settled, List.flatMap_singleton]
    exact ih.step hread hfinalizes step

/-- **A stranded process stays stranded**, by induction on the run, until it is started again. -/
theorem Stranded.run {k : Nat} {tip : GameTip} (hread : P.ReadsWitnesses)
    (hfinalizes : Finalizes P finalize) (hinv : f.Inv P codeHash gameId txs)
    (hstranded : Stranded k tip f) {actions : List Fleet.Action}
    (run : Trace (Fleet.Step P codeHash gameId finalize) f actions f')
    (hnot : .start k ∉ actions) :
    Stranded k tip f' ∧ ∀ rtx, .take k rtx ∉ actions := by
  induction run with
  | nil => exact ⟨hstranded, fun _ => List.not_mem_nil⟩
  | @snoc actions f₁ f₂ a run step ih =>
    obtain ⟨hbefore, hnotTaken⟩ := ih fun h => hnot (List.mem_append_left _ h)
    have hne : a ≠ .start k := by
      rintro rfl
      exact hnot (List.mem_append_right _ (List.mem_singleton_self _))
    obtain ⟨hafter, hother⟩ := hbefore.step hfinalizes (hinv.run hread hfinalizes run) step hne
    refine ⟨hafter, fun rtx hmem => ?_⟩
    rcases List.mem_append.mp hmem with h | h
    · exact hnotTaken rtx h
    · exact hother rtx (List.mem_singleton.mp h).symm

/-! ## What a fleet keeps -/

/-- Nobody runs. -/
def Fleet.idle (C : Chain OutPoint Cell) : Fleet := ⟨⟨[], C⟩, fun _ => none, []⟩

/-- The invariant holds before any process and any transaction. -/
theorem inv_idle {C : Chain OutPoint Cell}
    (hstart : NoCode (gameType codeHash gameId) C.cells)
    (hgame : NoGameCell P (gameType codeHash gameId) C.cells) :
    (Fleet.idle C).Inv P codeHash gameId [] := by
  have hon := onChain_start hstart hgame
  refine ⟨hon, ?_, ?_, List.Sublist.refl _⟩
  · intro v hv
    obtain rfl := List.mem_singleton.mp hv
    exact ⟨⟨[], hon⟩, List.Subset.refl _⟩
  · intro k op h
    cases h

/-- A tip that is live is the game cell, and its board is the board of what was played. -/
theorem Fleet.Inv.live_tip (hinv : f.Inv P codeHash gameId txs) {k : Nat} {op : GameOperator}
    {c : Cell} (hop : f.operators k = some op)
    (hlive : f.history.now.cells op.tip.outPoint = some c) :
    Vm.carries P (gameType codeHash gameId) c = true ∧ c.output = op.tip.output ∧
      GameState.decode c.data = .ok op.tip.state ∧
      Board (applied P (gameType codeHash gameId) txs) op.tip.state := by
  obtain ⟨d, hlog, houtput, htype, hstate⟩ := (hinv.tips k op hop).known
  obtain rfl : c = d := f.history.now.eq_of_mem_log (f.history.now.logged _ _ hlive) hlog
  have hcarries : Vm.carries P (gameType codeHash gameId) c = true := Vm.carries_of_type htype
  obtain ⟨state, hdecode, hboard⟩ := (hinv.chain.accounts hlive hcarries).board
  obtain rfl : state = op.tip.state := Except.ok.inj (hdecode.symm.trans hstate)
  exact ⟨hcarries, houtput, hstate, hboard⟩

/-- Two tips that are live are the same. -/
theorem Fleet.Inv.agree (hinv : f.Inv P codeHash gameId txs) {j k : Nat} {op op' : GameOperator}
    {c d : Cell} (hj : f.operators j = some op) (hk : f.operators k = some op')
    (hc : f.history.now.cells op.tip.outPoint = some c)
    (hd : f.history.now.cells op'.tip.outPoint = some d) : op.tip = op'.tip := by
  obtain ⟨hcarries, houtput, hstate, -⟩ := hinv.live_tip hj hc
  obtain ⟨hcarries', houtput', hstate', -⟩ := hinv.live_tip hk hd
  rcases hinv.chain.game with ⟨-, hnone⟩ | ⟨outPoint, e, -, -, -, hunique⟩
  · exact absurd hcarries (hnone _ _ hc)
  · have hpoint : op.tip.outPoint = op'.tip.outPoint :=
      (hunique _ _ hc hcarries).trans (hunique _ _ hd hcarries').symm
    rw [hpoint] at hc
    obtain rfl : c = d := Option.some.inj (hc.symm.trans hd)
    have hboard : op.tip.state = op'.tip.state := Except.ok.inj (hstate.symm.trans hstate')
    show GameTip.mk op.tip.outPoint op.tip.output op.tip.state =
      ⟨op'.tip.outPoint, op'.tip.output, op'.tip.state⟩
    rw [hpoint, ← houtput, houtput', hboard]

end Invariant

/-- **Any number of operators.** Take any run of the fleet from a chain without cells of the game's
code. The batches that operators were told are taken were played, in this order, and nothing was
played twice. Operators with a live tip have the same tip, with the board of everything that was
played. An operator whose tip is not live keeps it and sends nothing that is taken, whatever else
happens, until it is restarted. -/
theorem fleet_safe (P : Platform) (hread : P.ReadsWitnesses) (codeHash gameId : Byte32)
    (finalize : Transaction → Except String Transaction) (hfinalizes : Finalizes P finalize)
    (start : Chain OutPoint Cell) (hstart : NoCode (gameType codeHash gameId) start.cells)
    (hgame : NoGameCell P (gameType codeHash gameId) start.cells) (actions : List Fleet.Action)
    (f : Fleet) (run : Trace (Fleet.Step P codeHash gameId finalize) (.idle start) actions f) :
    f.acknowledged.Sublist (applied P (gameType codeHash gameId) (settled actions)) ∧
      (f.acknowledged.map fun i => (i.hash, i.points, i.nonce)).Nodup ∧
      (∀ k op c, f.operators k = some op → f.history.now.cells op.tip.outPoint = some c →
        c.output = op.tip.output ∧ GameState.decode c.data = .ok op.tip.state ∧
          Board (applied P (gameType codeHash gameId) (settled actions)) op.tip.state) ∧
      (∀ j k op op' c d, f.operators j = some op → f.operators k = some op' →
        f.history.now.cells op.tip.outPoint = some c →
        f.history.now.cells op'.tip.outPoint = some d → op.tip = op'.tip) ∧
      ∀ k op, f.operators k = some op → f.history.now.cells op.tip.outPoint = none →
        ∀ later f', Trace (Fleet.Step P codeHash gameId finalize) f later f' →
          .start k ∉ later →
          (∃ op', f'.operators k = some op' ∧ op'.tip = op.tip) ∧ ∀ rtx, .take k rtx ∉ later := by
  -- one invariant of the whole fleet gives all five parts
  have hinv : f.Inv P codeHash gameId (settled actions) :=
    (inv_idle hstart hgame).run hread hfinalizes run
  refine ⟨hinv.acknowledged, ?_, ?_, ?_, ?_⟩
  · exact (hinv.acknowledged.map _).nodup hinv.chain.nodup_applied
  · intro k op c hop hlive
    exact (hinv.live_tip hop hlive).2
  · intro j k op op' c d hj hk hc hd
    exact hinv.agree hj hk hc hd
  · intro k op hop hgone later f' hlater hnot
    -- a spent out point never comes back, so the operator is stranded for good
    have hstranded : Stranded k op.tip f := ⟨⟨op, hop, rfl⟩, hgone⟩
    obtain ⟨⟨hsame, -⟩, htaken⟩ := hstranded.run hread hfinalizes hinv hlater hnot
    exact ⟨hsame, htaken⟩

/-! ### Two operators of one game

Both start on the genesis; the first plays a move. -/

def firstOperator : GameOperator :=
  (GameOperator.new resumedId [] ⟨resumedOutPoint, resumedCell.output, GameState.empty⟩).withFee 3

def queuedOperator : GameOperator := firstOperator.enqueue (restMove 0)

def firstTransition : Transition :=
  let nextOutput : CellOutput := { resumedCell.output with capacity := 997 }
  let nextState : GameState := ⟨1, [⟨sampleKey 1, 0, 1⟩]⟩
  { tx := queuedOperator.transitionTx .sample nextOutput nextState
    applied := 1
    nextState
    nextOutput }

def firstPlay : ResolvedTx := queuedOperator.resolved firstTransition resumedCell

theorem startOperator_genesis :
    startOperator (typeIndexer (resumedChain.listed (typed resumedType))) quietRuntime
      (sampleHash 20) resumedId [] 3 = .ok firstOperator :=
  have hfound : resumedChain.oldest (typed resumedType) = some (resumedOutPoint, resumedCell) := by
    decide +kernel
  startOperator_found (answersFor_typeIndexer (by decide +kernel)) hfound rfl

theorem build_firstPlay : queuedOperator.buildTransition .sample = .ok firstTransition :=
  GameOperator.buildTransition_eq_ok.mpr
    ⟨List.cons_ne_nil _ _, applyBatch_restMoves 0 (by decide), rfl, rfl, rfl, rfl⟩

theorem commits_firstPlay : Utxo.Commits resumedChain.cells firstPlay.spent
    (firstPlay.created .sample)
    (Utxo.settle resumedChain.cells firstPlay.spent (firstPlay.created .sample)) :=
  ⟨by decide +kernel, by decide +kernel, by decide +kernel, by decide +kernel, rfl⟩

def playedChain : Chain OutPoint Cell :=
  resumedChain.next commits_firstPlay (by decide +kernel)

theorem codeStep_firstPlay :
    CodeStep .sample resumedType resumedChain firstPlay playedChain where
  step := ⟨commits_firstPlay, rfl⟩
  accepted t _ hruns := by
    obtain ⟨c, hc, htype⟩ := hruns
    have hpair : c = resumedCell ∨ c = firstTransition.nextCell := List.mem_pair.mp hc
    rcases hpair with rfl | rfl
    · cases htype
      exact eq_ok_of_isOk (by decide +kernel)
    · cases htype
      exact eq_ok_of_isOk (by decide +kernel)
  guard hcreates := absurd (Vm.carries_of_type rfl)
    (hcreates.2 resumedCell (List.mem_singleton_self _))
  genuine := by decide +kernel

def firstHash : Byte32 := Platform.sample.txHash firstTransition.tx.raw

/-- Both operators run, and the first has taken a move. -/
def bothFleet : Fleet :=
  (((Fleet.idle resumedStart).settle resumedChain).setOperator 0 firstOperator).setOperator 1
    firstOperator

def playedFleet : Fleet :=
  (((bothFleet.setOperator 0 queuedOperator).settle playedChain).setOperator 0
    (queuedOperator.advance firstTransition firstHash)).acknowledge [restMove 0]

def firstActions : List Fleet.Action :=
  [.settle resumedGenesis, .start 0, .start 1, .submit 0 (restMove 0), .take 0 firstPlay]

theorem submit_firstOperator :
    (GameOperator.submit (restMove 0)).call firstOperator = (.ok (), queuedOperator) :=
  GameOperator.submit_accepted (applyBatch_nil _) rfl

theorem flush_firstPlay :
    flushOrShed .sample (Reply.acknowledged.answer .sample) .ok queuedOperator =
      (.ok firstHash, queuedOperator.advance firstTransition firstHash) := by
  unfold flushOrShed
  rw [GameOperator.flush_sent build_firstPlay rfl rfl]
  rfl

theorem run_firstActions :
    Trace (Fleet.Step .sample (sampleHash 20) resumedId .ok) (.idle resumedStart) firstActions
      playedFleet := by
  have hanswers : (typeIndexer (resumedChain.listed (typed resumedType))).AnswersFor resumedChain
      resumedType := answersFor_typeIndexer (by decide +kernel)
  -- the game is created, and both operators start from its cell
  have hgenesis : Trace (Fleet.Step .sample (sampleHash 20) resumedId .ok) (.idle resumedStart)
      [.settle resumedGenesis] ((Fleet.idle resumedStart).settle resumedChain) :=
    .single (.settle codeStep_resumedGenesis)
  have hboth : Trace (Fleet.Step .sample (sampleHash 20) resumedId .ok) (.idle resumedStart)
      [.settle resumedGenesis, .start 0, .start 1] bothFleet :=
    (hgenesis.snoc (.start List.mem_cons_self hanswers startOperator_genesis)).snoc
      (.start List.mem_cons_self hanswers startOperator_genesis)
  -- the first operator takes a move and publishes it
  have hsubmit : Fleet.Step .sample (sampleHash 20) resumedId .ok bothFleet
      (.submit 0 (restMove 0)) (bothFleet.setOperator 0 queuedOperator) := by
    have h := @Fleet.Step.submit .sample (sampleHash 20) resumedId .ok bothFleet 0 firstOperator
      (restMove 0) rfl
    rw [submit_firstOperator] at h
    exact h
  have htake : Fleet.Step .sample (sampleHash 20) resumedId .ok
      (bothFleet.setOperator 0 queuedOperator) (.take 0 firstPlay) playedFleet := by
    have h := @Fleet.Step.take .sample (sampleHash 20) resumedId .ok
      (bothFleet.setOperator 0 queuedOperator) 0 queuedOperator .acknowledged firstPlay playedChain
      rfl (signedTx_eq_some build_firstPlay rfl) rfl codeStep_firstPlay
    rw [flush_firstPlay] at h
    exact h
  exact (hboth.snoc hsubmit).snoc htake

theorem fleet_safe_two_operators :
    [restMove 0].Sublist (applied .sample resumedType (settled firstActions)) ∧
      Board (applied .sample resumedType (settled firstActions)) firstTransition.nextState ∧
      ∀ later f', Trace (Fleet.Step .sample (sampleHash 20) resumedId .ok) playedFleet later f' →
        .start 1 ∉ later →
        (∃ op', f'.operators 1 = some op' ∧ op'.tip = firstOperator.tip) ∧
          ∀ rtx, .take 1 rtx ∉ later := by
  have hnoCode : NoCode resumedType resumedStart.cells := by
    intro op c t hlive htype
    rw [resumedStart_plain hlive] at htype
    cases htype
  obtain ⟨hsublist, -, htips, -, hstranded⟩ := fleet_safe .sample
    (Platform.readsWitnesses_molecule _ _) (sampleHash 20) resumedId .ok (finalizes_ok _)
    resumedStart hnoCode resumedStart_noGame firstActions playedFleet run_firstActions
  refine ⟨hsublist, ?_, ?_⟩
  · exact (htips 0 _ firstTransition.nextCell rfl (by decide +kernel)).2.2
  · exact hstranded 1 firstOperator rfl (by decide +kernel)

end CkbController.PaymasterService
