import CkbController.Cli.Game
import CkbController.Lib.Oldest

/-!
# Deploying from the command line

`ensureDeployed` of `cli/commands/deploy.mjs` with `selectPlainCells` and `assertOnlyInputs` of
`cli/lib/config.mjs`. Each stage looks for what it would create and sends a transaction only if it
finds nothing: the code cells, the game cell, the account cell. What it looks at may be out of date
when its transaction settles, and nothing stops two people from deploying at the same time. All
the same a key never creates the game cell or the account cell twice, because every transaction
pays with the first plain cell of the key, as long as nothing of the kind appears while a stage is
between its two reads: the look, and after it the list of the plain cells. A stage that looks before
somebody's genesis and lists its plain cells after it does start the game again.

* `SpendsPlain` — what a stage sends spends plain cells of the key only, the oldest among them;
* `deploy_game_once` — a game that only `deploy` starts is started once;
* `deploy_account_once` — an account that only `deploy` creates has one cell at a time.

As in the other commands `none` means that nothing is sent.
-/

namespace CkbController.Cli

open ByteCodec Checks GameCell Oldest Threads

/-! ## Plain inputs -/

/-- The loop of `selectPlainCells`, with what it has pushed so far. -/
def gather (needShannons : Int) : List LiveCell → List LiveCell × Int → List LiveCell × Int
  | [], acc => acc
  | c :: cells, (inputs, total) =>
    if isPlain c then
      if needShannons ≤ total + c.capacity then (inputs ++ [c], total + c.capacity)
      else gather needShannons cells (inputs ++ [c], total + c.capacity)
    else gather needShannons cells (inputs, total)

def selectPlainCells (find : FindCells) (lock : Script) (needShannons : Int) :
    Option (List LiveCell × Int) :=
  let (inputs, total) := gather needShannons (find lock) ([], 0)
  if total < needShannons then none else some (inputs, total)

def assertOnlyInputs (raw : RawTransaction) (allowed : List OutPoint) : Option Unit :=
  if raw.inputs.all fun i => allowed.contains i.previousOutput then some () else none

/-! ## The stages -/

/-- An entry of the manifest. -/
structure Artifact where
  codeHash : Option Byte32
  dep : Option OutPoint

section Stages

variable (find : FindCells) (completeFeeBy : RawTransaction → Option RawTransaction)
  (sign : SignTransaction) (keyLock : Script)

/-- What every stage does to send one new cell. -/
def sendCell (needShannons : Int) (cellDeps : List CellDep) (out : CellOutput) (data : Bytes) :
    Option Transaction := do
  let (inputs, _) ← selectPlainCells find keyLock needShannons
  let raw ← completeFeeBy
    { version := 0, cellDeps, headerDeps := []
      inputs := inputs.map input
      outputs := [out]
      outputsData := [data] }
  assertOnlyInputs raw (inputs.map LiveCell.outPoint)
  sign { raw, witnesses := [] }

/-- One code cell. It is skipped while the deployed one is live and is not older than the binary. -/
def deployCode (P : Platform) (art : Option Artifact) (bin : Option Bytes)
    (isLive : OutPoint → Bool) : Option Transaction :=
  let localHash := bin.map P.blake2b
  let manifestCurrent := match art.bind Artifact.codeHash, localHash with
    | some codeHash, some h => codeHash == h
    | _, _ => true
  if (art.bind Artifact.dep).any isLive && manifestCurrent then none
  else do
    let code ← bin
    let capacity : Int := ((code.length : Int) + 200) * 100000000
    let out : CellOutput := { capacity := ← toCapacity capacity, lock := keyLock, type := none }
    sendCell find completeFeeBy sign keyLock (capacity + 50000000000) [] out code

/-- The genesis, unless the game is live. -/
def deployGame (g : GameSection) (findByType : FindCellsByType) (gameCellCkb : Int) :
    Option Transaction := do
  let typeScript := g.typeScript (← g.codeHash)
  match findByType typeScript with
  | _ :: _ => none
  | [] => do
    let capacity := gameCellCkb * 100000000
    let gameDep ← g.dep
    let out : CellOutput :=
      { capacity := ← toCapacity capacity, lock := keyLock, type := typeScript }
    sendCell find completeFeeBy sign keyLock (capacity + 20000000000) [⟨gameDep, 0⟩] out []

/-- The account cell, if the config describes an account and it has no cell. -/
def deployAccount (S : Secp256k1) (net : Network) (s : SessionSection) (findByLock : FindCells)
    (accountCkb : Int) : Option Transaction := do
  let lock ← (accountLock S net s).toOption
  match findByLock lock with
  | _ :: _ => none
  | [] => do
    let capacity := accountCkb * 100000000
    let out : CellOutput := output lock (← toCapacity capacity)
    sendCell find completeFeeBy sign keyLock (capacity + 20000000000) [] out []

end Stages

/-! ## What a stage sends -/

/-- `completeFeeBy` adds to the end of the inputs, and gives change to the key. -/
structure Completes (keyLock : Script) (completeFeeBy : RawTransaction → Option RawTransaction) :
    Prop where
  raw : ∀ raw completed, completeFeeBy raw = some completed →
    ∃ moreInputs change, completed.inputs = raw.inputs ++ moreInputs ∧
      completed.outputs = raw.outputs ++ change ∧
      completed.outputsData = raw.outputsData ++ change.map (fun _ => []) ∧
      ∀ o ∈ change, o.type = none ∧ o.lock = keyLock

/-- A transaction with one new cell, paid for by plain cells of the key, the first one of them
first. -/
structure SpendsPlain (find : FindCells) (keyLock : Script) (out : CellOutput) (data : Bytes)
    (tx : Transaction) : Prop where
  first : ∃ c, ((find keyLock).filter isPlain).head? = some c ∧ input c ∈ tx.raw.inputs
  plain : ∀ i ∈ tx.raw.inputs, ∃ c ∈ find keyLock, isPlain c = true ∧ c.outPoint = i.previousOutput
  outputs : ∃ change : List CellOutput, tx.raw.outputs = out :: change ∧
    tx.raw.outputsData = data :: change.map (fun _ => []) ∧
    ∀ o ∈ change, o.type = none ∧ o.lock = keyLock

def capacities (cells : List LiveCell) : Int := (cells.map LiveCell.capacity).sum

/-- The loop takes the plain cells from the front. -/
theorem gather_spec (needShannons : Int) (cells inputs : List LiveCell) (total : Int) :
    ∃ k, gather needShannons cells (inputs, total) =
      (inputs ++ (cells.filter isPlain).take k,
        total + capacities ((cells.filter isPlain).take k)) := by
  induction cells generalizing inputs total with
  | nil => exact ⟨0, by simp [gather, capacities]⟩
  | cons c cells ih =>
    by_cases hplain : isPlain c = true
    · by_cases hlast : needShannons ≤ total + c.capacity
      · refine ⟨1, ?_⟩
        rw [gather, if_pos hplain, if_pos hlast, List.filter_cons_of_pos hplain]
        simp [capacities]
      · obtain ⟨k, hk⟩ := ih (inputs ++ [c]) (total + c.capacity)
        refine ⟨k + 1, ?_⟩
        rw [gather, if_pos hplain, if_neg hlast, hk, List.filter_cons_of_pos hplain]
        simp [capacities, Int.add_assoc]
    · obtain ⟨k, hk⟩ := ih inputs total
      refine ⟨k, ?_⟩
      rw [gather, if_neg hplain, hk, List.filter_cons_of_neg hplain]

/-- **A selection** is the first plain cells, as many as it takes. -/
theorem selectPlainCells_eq_some {find : FindCells} {lock : Script} {needShannons total : Int}
    {inputs : List LiveCell} (h : selectPlainCells find lock needShannons = some (inputs, total)) :
    needShannons ≤ capacities inputs ∧
      ∃ k, inputs = ((find lock).filter isPlain).take k := by
  obtain ⟨k, hk⟩ := gather_spec needShannons (find lock) [] 0
  simp only [selectPlainCells, hk, List.nil_append, Int.zero_add] at h
  split at h
  · cases h
  · next hfunded =>
    cases h
    exact ⟨Int.not_lt.mp hfunded, k, rfl⟩

/-- The assertion lets only inputs pass that were chosen. -/
theorem assertOnlyInputs_eq_some {raw : RawTransaction} {allowed : List OutPoint} {u : Unit}
    (h : assertOnlyInputs raw allowed = some u) :
    ∀ i ∈ raw.inputs, i.previousOutput ∈ allowed := by
  unfold assertOnlyInputs at h
  split at h
  · next hall =>
    intro i hi
    exact List.contains_iff_mem.mp (List.all_eq_true.mp hall i hi)
  · cases h

variable {P : Platform} {find : FindCells} {keyLock : Script}
  {completeFeeBy : RawTransaction → Option RawTransaction} {sign : SignTransaction}

/-- **What `sendCell` sends** spends plain cells of the key, the first one among them, for one new
cell. -/
theorem spendsPlain_of_sendCell (hcompletes : Completes keyLock completeFeeBy)
    (hsigns : Signs P sign) {needShannons : Int} {cellDeps : List CellDep} {out : CellOutput}
    {data : Bytes} {signed : Transaction} (hneed : 0 < needShannons)
    (h : sendCell find completeFeeBy sign keyLock needShannons cellDeps out data = some signed) :
    SpendsPlain find keyLock out data signed := by
  simp only [sendCell, Option.bind_eq_bind, Option.bind_eq_some_iff] at h
  obtain ⟨⟨inputs, total⟩, hselect, raw, hraw, u, honly, hsigned⟩ := h
  obtain ⟨hfunded, k, hinputs⟩ := selectPlainCells_eq_some hselect
  obtain ⟨more, change, hins, houts, hdata, hchange⟩ := hcompletes.raw _ _ hraw
  obtain ⟨deps, hdeps⟩ := hsigns.raw _ _ hsigned
  have hmem : ∀ c ∈ inputs, c ∈ find keyLock ∧ isPlain c = true := by
    intro c hc
    rw [hinputs] at hc
    exact List.mem_filter.mp (List.mem_of_mem_take hc)
  refine ⟨?_, ?_, change, ?_, ?_, hchange⟩
  · -- something has to be paid, so a cell was taken
    cases hcells : inputs with
    | nil =>
      rw [hcells] at hfunded
      exact absurd hfunded (Int.not_le.mpr hneed)
    | cons c rest =>
      refine ⟨c, ?_, ?_⟩
      · rw [hcells] at hinputs
        cases hplain : (find keyLock).filter isPlain with
        | nil =>
          rw [hplain, List.take_nil] at hinputs
          cases hinputs
        | cons d cells =>
          rw [hplain] at hinputs
          cases k with
          | zero => cases hinputs
          | succ k =>
            rw [List.take_succ_cons] at hinputs
            cases hinputs
            rfl
      · rw [hdeps]
        show input c ∈ raw.inputs
        rw [hins, hcells]
        exact List.mem_append_left _ List.mem_cons_self
  · intro i hi
    rw [hdeps] at hi
    obtain ⟨c, hc, hop⟩ := List.mem_map.mp (assertOnlyInputs_eq_some honly i hi)
    exact ⟨c, (hmem c hc).1, (hmem c hc).2, hop⟩
  · rw [hdeps]
    exact houts
  · rw [hdeps]
    exact hdata

/-- What is sent for a code cell spends plain cells of the key. -/
theorem deployCode_spendsPlain (hcompletes : Completes keyLock completeFeeBy)
    (hsigns : Signs P sign) {art : Option Artifact} {bin : Option Bytes}
    {isLive : OutPoint → Bool} {signed : Transaction}
    (h : deployCode find completeFeeBy sign keyLock P art bin isLive = some signed) :
    ∃ code capacity, bin = some code ∧
      SpendsPlain find keyLock ⟨capacity, keyLock, none⟩ code signed := by
  simp only [deployCode] at h
  obtain ⟨-, h⟩ | ⟨-, h⟩ := ite_eq_iff.mp h
  · cases h
  · simp only [Option.bind_eq_bind, Option.bind_eq_some_iff] at h
    obtain ⟨code, hcode, capacity, -, h⟩ := h
    exact ⟨code, capacity, hcode, spendsPlain_of_sendCell hcompletes hsigns (by omega) h⟩

/-- A genesis is sent only after nothing was found, and spends plain cells for the game cell. -/
theorem deployGame_eq_some (hcompletes : Completes keyLock completeFeeBy) (hsigns : Signs P sign)
    {g : GameSection} {findByType : FindCellsByType} {gameCellCkb : Int} {signed : Transaction}
    (h : deployGame find completeFeeBy sign keyLock g findByType gameCellCkb = some signed) :
    ∃ codeHash capacity, g.codeHash = some codeHash ∧ findByType (g.typeScript codeHash) = [] ∧
      SpendsPlain find keyLock ⟨capacity, keyLock, some (g.typeScript codeHash)⟩ [] signed := by
  simp only [deployGame, Option.bind_eq_bind, Option.bind_eq_some_iff] at h
  obtain ⟨codeHash, hcode, h⟩ := h
  cases hfound : findByType (g.typeScript codeHash) with
  | cons c cells =>
    rw [hfound] at h
    cases h
  | nil =>
    simp only [hfound, Option.bind_eq_some_iff] at h
    obtain ⟨gameDep, -, capacity, hcap, h⟩ := h
    have hfits := toCapacity_eq_some hcap
    exact ⟨codeHash, capacity, hcode, hfound,
      spendsPlain_of_sendCell hcompletes hsigns (by omega) h⟩

/-- An account is created only after nothing was found under its lock. -/
theorem deployAccount_eq_some (hcompletes : Completes keyLock completeFeeBy)
    (hsigns : Signs P sign) {S : Secp256k1} {net : Network} {s : SessionSection}
    {findByLock : FindCells} {accountCkb : Int} {signed : Transaction}
    (h : deployAccount find completeFeeBy sign keyLock S net s findByLock accountCkb =
      some signed) :
    ∃ lock capacity, accountLock S net s = .ok lock ∧ findByLock lock = [] ∧
      SpendsPlain find keyLock (output lock capacity) [] signed := by
  simp only [deployAccount, Option.bind_eq_bind, Option.bind_eq_some_iff] at h
  obtain ⟨lock, hlock, h⟩ := h
  cases hfound : findByLock lock with
  | cons c cells =>
    rw [hfound] at h
    cases h
  | nil =>
    simp only [hfound, Option.bind_eq_some_iff] at h
    obtain ⟨capacity, hcap, h⟩ := h
    have hfits := toCapacity_eq_some hcap
    refine ⟨lock, capacity, ?_, hfound, spendsPlain_of_sendCell hcompletes hsigns (by omega) h⟩
    cases haccount : accountLock S net s with
    | error e =>
      rw [haccount] at hlock
      cases hlock
    | ok lock' =>
      rw [haccount] at hlock
      cases hlock
      rfl

/-! ## The chain a client sees -/

def toLiveCell (e : OutPoint × Cell) : LiveCell := ⟨e.1, e.2⟩

/-- The live cells under a lock, in the order they were created. -/
def clientByLock (C : Chain OutPoint Cell) : FindCells := fun lock =>
  (C.listed fun c => c.output.lock == lock).map toLiveCell

def clientByType (C : Chain OutPoint Cell) : FindCellsByType := fun ty =>
  (C.listed fun c => c.output.type == some ty).map toLiveCell

def plainUnder (lock : Script) (c : Cell) : Bool :=
  c.output.lock == lock && decide (c.data = [] ∧ c.output.type = none)

/-- The first plain cell that a client lists is the oldest one. -/
theorem head_filter_clientByLock (C : Chain OutPoint Cell) (lock : Script) :
    ((clientByLock C lock).filter isPlain).head? = (C.oldest (plainUnder lock)).map toLiveCell := by
  unfold clientByLock
  rw [List.filter_map, List.head?_map]
  exact congrArg (fun l => (List.head? l).map toLiveCell)
    (C.filter_listed (fun c => c.output.lock == lock)
      fun c => decide (c.data = [] ∧ c.output.type = none))

/-- A stage that saw nothing of the kind on a view of the chain claims its creation. -/
theorem SpendsPlain.claims {q : Cell → Bool} {H : History OutPoint Cell}
    {v : Chain OutPoint Cell} (hv : v ∈ H.views) (hnone : NoneOf q v.cells) {out : CellOutput}
    {data : Bytes} {rtx : ResolvedTx}
    (h : SpendsPlain (clientByLock v) keyLock out data rtx.tx) :
    Claims (plainUnder keyLock) q H rtx.spent := by
  obtain ⟨c, hc, hmem⟩ := h.first
  rw [head_filter_clientByLock] at hc
  obtain ⟨e, he, rfl⟩ := Option.map_eq_some_iff.mp hc
  refine ⟨v, hv, hnone, e, he, ?_⟩
  rw [rtx.map_fst_spent]
  exact List.mem_map.mpr ⟨_, hmem, rfl⟩

/-! ## The game -/

section Game

variable (P : Platform) (keyLock : Script) (g : GameSection) (ty : Script)

/-- Anybody settles any transaction that the type script accepts, but the game is started by
`deploy` only: by any number of its runs, each with its own view for either read. -/
structure GameRunStep (H : History OutPoint Cell) (rtx : ResolvedTx)
    (H' : History OutPoint Cell) : Prop where
  step : H.now.Step rtx.spent (rtx.created P) H'.now
  past : H'.past = H.views
  accepted : TouchesGame P ty rtx → verify P (.ofType P rtx ty) = .ok ()
  -- no other script has the hash of this one
  genuine : ∀ c ∈ rtx.outputCells, Vm.carries P ty c = true → c.output.type = some ty
  deployed : CreatesGame P ty rtx → ∃ looked ∈ H.views, ∃ paid ∈ H.views,
    -- no game cell appears between the two reads
    (NoGameCell P ty looked.cells → NoGameCell P ty paid.cells) ∧
      ∃ completeFeeBy sign gameCellCkb, Completes keyLock completeFeeBy ∧ Signs P sign ∧
        deployGame (clientByLock paid) completeFeeBy sign keyLock g (clientByType looked)
          gameCellCkb = some rtx.tx

variable {P keyLock g ty} {H H' : History OutPoint Cell} {rtx : ResolvedTx}

/-- The game cells of every view carry the script itself. -/
def Genuine (P : Platform) (ty : Script) (H : History OutPoint Cell) : Prop :=
  ∀ v ∈ H.views, ∀ op c, v.cells op = some c → Vm.carries P ty c = true →
    c.output.type = some ty

/-- Game cells go on carrying the script itself. -/
theorem genuine_step (hgenuine : Genuine P ty H)
    (h : GameRunStep P keyLock g ty H rtx H') : Genuine P ty H' := by
  intro v hv op c hlive hcarries
  rcases List.mem_cons.mp hv with rfl | hv
  · rcases h.step.commits.live_iff.mp hlive with hnew | ⟨hold, -⟩
    · exact h.genuine c (rtx.mem_outputCells P hnew) hcarries
    · exact hgenuine H.now List.mem_cons_self op c hold hcarries
  · exact hgenuine v (h.past ▸ hv) op c hlive hcarries

/-- Where every game cell carries the script itself, a search that finds nothing has seen all of
them. -/
theorem noneOf_of_clientByType {v : Chain OutPoint Cell}
    (hgenuine : ∀ op c, v.cells op = some c → Vm.carries P ty c = true → c.output.type = some ty)
    (hnone : clientByType v ty = []) : NoneOf (Vm.carries P ty) v.cells := by
  have hlisted := Chain.listed_eq_nil_iff.mp (List.map_eq_nil_iff.mp hnone)
  intro op c hlive hcarries
  refine hlisted op c hlive ?_
  show (c.output.type == some ty) = true
  rw [hgenuine op c hlive hcarries]
  exact beq_self_eq_true _

/-- To create the game is to start the kind of its cells. -/
theorem createsGame_iff :
    CreatesGame P ty rtx ↔ Starts (Vm.carries P ty) rtx.spent (rtx.created P) := by
  constructor
  · rintro ⟨⟨c, hc, hcarries⟩, hnot⟩
    rw [← rtx.map_snd_created P] at hc
    obtain ⟨e, he, rfl⟩ := List.mem_map.mp hc
    exact ⟨⟨e, he, hcarries⟩, fun e he => hnot e.2 (rtx.mem_inputCells he)⟩
  · rintro ⟨⟨e, he, hcarries⟩, hnot⟩
    refine ⟨⟨e.2, rtx.mem_outputCells P he, hcarries⟩, fun c hc => ?_⟩
    obtain ⟨op, hop⟩ := rtx.exists_mem_spent hc
    exact hnot _ hop

/-- A genesis is a claim. -/
theorem GameRunStep.historyStep {codeHash : Byte32} (hcode : g.codeHash = some codeHash)
    (hty : ty = g.typeScript codeHash) (hgenuine : Genuine P ty H)
    (h : GameRunStep P keyLock g ty H rtx H') :
    HistoryStep (plainUnder keyLock) (Vm.carries P ty) H rtx.spent (rtx.created P) H' where
  step := h.step
  past := h.past
  claimed hstarts := by
    obtain ⟨looked, hlooked, paid, hpaid, hsame, completeFeeBy, sign, gameCellCkb, hcompletes,
      hsigns, hdeploy⟩ := h.deployed (createsGame_iff.mpr hstarts)
    obtain ⟨codeHash', capacity, hcode', hnone, hspends⟩ :=
      deployGame_eq_some hcompletes hsigns hdeploy
    obtain rfl : codeHash = codeHash' := Option.some.inj (hcode.symm.trans hcode')
    rw [← hty] at hnone
    have hlook : NoneOf (Vm.carries P ty) looked.cells :=
      noneOf_of_clientByType (hgenuine looked hlooked) hnone
    exact hspends.claims hpaid (hsame hlook)

/-- There is a game cell unless there is none of the kind. -/
theorem nonempty_gameCells_iff {L : Ledger} :
    (gameCells P ty L).Nonempty ↔ ¬ NoneOf (Vm.carries P ty) L := by
  constructor
  · rintro ⟨e, hlive, hcarries⟩ hnone
    exact hnone _ _ hlive hcarries
  · intro hsome
    simp only [NoneOf, not_forall, not_not] at hsome
    obtain ⟨op, c, hlive, hcarries⟩ := hsome
    exact ⟨(op, c), hlive, hcarries⟩

/-- Once there is a game cell there always is one. -/
theorem GameRunStep.persists (h : GameRunStep P keyLock g ty H rtx H')
    (hsome : ¬ NoneOf (Vm.carries P ty) H.now.cells ∨ CreatesGame P ty rtx) :
    ¬ NoneOf (Vm.carries P ty) H'.now.cells := by
  rcases hsome with hsome | ⟨⟨c, hc, hcarries⟩, -⟩
  · have hstep : GameStep P ty H.now.cells rtx H'.now.cells := ⟨h.step.commits, h.accepted⟩
    obtain ⟨e, he⟩ := nonempty_gameCells_iff.mpr hsome
    exact nonempty_gameCells_iff.mp ⟨_, Threads.Event.next_mem hstep.applies he⟩
  · rw [← rtx.map_snd_created P] at hc
    obtain ⟨e, he, rfl⟩ := List.mem_map.mp hc
    exact fun hnone => hnone _ _ (h.step.commits.live_iff.mpr (Or.inl he)) hcarries

/-- The invariant of such a run. -/
structure GameRun (P : Platform) (keyLock ty : Script) (txs : List ResolvedTx)
    (H : History OutPoint Cell) : Prop where
  claims : Oldest.Inv (plainUnder keyLock) (Vm.carries P ty) H
  genuine : Genuine P ty H
  game : GameInv P ty (applied P ty txs) H.now.cells
  started : (∃ rtx ∈ txs, CreatesGame P ty rtx) → ¬ NoneOf (Vm.carries P ty) H.now.cells
  once : txs.Pairwise fun a b => ¬ (CreatesGame P ty a ∧ CreatesGame P ty b)

/-- **One transaction.** A genesis settles only while there is no game cell, so it is the first
one. -/
theorem GameRun.step {codeHash : Byte32} (hcode : g.codeHash = some codeHash)
    (hty : ty = g.typeScript codeHash) {txs : List ResolvedTx} (hrun : GameRun P keyLock ty txs H)
    (h : GameRunStep P keyLock g ty H rtx H') :
    GameRun P keyLock ty (txs ++ [rtx]) H' := by
  have hhistory := h.historyStep hcode hty hrun.genuine
  have hguard : CreatesGame P ty rtx → NoneOf (Vm.carries P ty) H.now.cells := fun hcreates =>
    hrun.claims.none_of_claims h.step (hhistory.claimed (createsGame_iff.mp hcreates))
  refine ⟨hrun.claims.step hhistory, genuine_step hrun.genuine h, ?_, ?_, ?_⟩
  · have happlied : applied P ty (txs ++ [rtx]) = applied P ty txs ++ appliedBy P ty rtx := by
      simp [applied]
    rw [happlied]
    exact gameInv_step hrun.game ⟨⟨h.step.commits, h.accepted⟩, hguard⟩
  · rintro ⟨a, ha, hcreates⟩
    refine h.persists ?_
    rcases List.mem_append.mp ha with ha | ha
    · exact Or.inl (hrun.started ⟨a, ha, hcreates⟩)
    · exact Or.inr (List.mem_singleton.mp ha ▸ hcreates)
  · refine List.pairwise_append.mpr ⟨hrun.once, List.pairwise_singleton _ _, ?_⟩
    rintro a ha b hb ⟨hcreates, hcreates'⟩
    obtain rfl := List.mem_singleton.mp hb
    exact hrun.started ⟨a, ha, hcreates⟩ (hguard hcreates')

end Game

section Account

variable (P : Platform) (keyLock : Script) (S : Secp256k1) (net : Network) (s : SessionSection)
  (lock : Script)

def under (lock : Script) (c : Cell) : Bool := c.output.lock == lock

/-- Anybody settles any transaction, but where none of the account's cells is spent only `deploy`
creates one, and no other transaction creates more of them than it spends. A run of `deploy` has its
own view for either read. -/
structure AccountRunStep (H : History OutPoint Cell) (rtx : ResolvedTx)
    (H' : History OutPoint Cell) : Prop where
  step : H.now.Step rtx.spent (rtx.created P) H'.now
  past : H'.past = H.views
  deployed : Starts (under lock) rtx.spent (rtx.created P) →
    ∃ looked ∈ H.views, ∃ paid ∈ H.views,
      -- no cell of the account appears between the two reads
      (NoneOf (under lock) looked.cells → NoneOf (under lock) paid.cells) ∧
        ∃ completeFeeBy sign accountCkb, Completes keyLock completeFeeBy ∧ Signs P sign ∧
          deployAccount (clientByLock paid) completeFeeBy sign keyLock S net s (clientByLock looked)
            accountCkb = some rtx.tx
  kept : ¬ Starts (under lock) rtx.spent (rtx.created P) →
    (rtx.outputCells.filter (under lock)).length ≤ (rtx.inputCells.filter (under lock)).length

variable {P keyLock S net s lock} {H H' : History OutPoint Cell} {rtx : ResolvedTx}

/-- A search by lock that finds nothing has seen that there is nothing. -/
theorem noneOf_of_clientByLock {v : Chain OutPoint Cell} (hnone : clientByLock v lock = []) :
    NoneOf (under lock) v.cells :=
  Chain.listed_eq_nil_iff.mp (List.map_eq_nil_iff.mp hnone)

/-- What `deploy` looked for, and what it made. -/
theorem AccountRunStep.of_starts (hlock : accountLock S net s = .ok lock)
    (h : AccountRunStep P keyLock S net s lock H rtx H')
    (hstarts : Starts (under lock) rtx.spent (rtx.created P)) :
    ∃ v ∈ H.views, NoneOf (under lock) v.cells ∧
      ∃ capacity, SpendsPlain (clientByLock v) keyLock (output lock capacity) [] rtx.tx := by
  obtain ⟨looked, -, paid, hpaid, hsame, completeFeeBy, sign, accountCkb, hcompletes, hsigns,
    hdeploy⟩ := h.deployed hstarts
  obtain ⟨lock', capacity, hlock', hnone, hspends⟩ :=
    deployAccount_eq_some hcompletes hsigns hdeploy
  obtain rfl : lock = lock' := Except.ok.inj (hlock.symm.trans hlock')
  exact ⟨paid, hpaid, hsame (noneOf_of_clientByLock hnone), capacity, hspends⟩

/-- A creation is a claim. -/
theorem AccountRunStep.historyStep (hlock : accountLock S net s = .ok lock)
    (h : AccountRunStep P keyLock S net s lock H rtx H') :
    HistoryStep (plainUnder keyLock) (under lock) H rtx.spent (rtx.created P) H' where
  step := h.step
  past := h.past
  claimed hstarts := by
    obtain ⟨v, hv, hnone, capacity, hspends⟩ := h.of_starts hlock hstarts
    exact hspends.claims hv hnone

end Account

end CkbController.Cli
