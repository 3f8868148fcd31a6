import CkbController.Lib.Trace
import CkbController.SdkJs.MockRail

/-!
# Mock rails on a page

Any number of mock rails on one page, with calls in any order. The rails share the invoices of the
page and nothing else: an invoice is paid once, by one rail, out of its budget, and each rail does
the accounts of a purse over its own calls (`purseOf`).

The id of an invoice carries the counter of the module, so it is new as long as the counter, a
double, counts.
-/

namespace CkbController.SdkJs

open ByteCodec Checks Wasm

/-! ## Ids -/

/-- Texts up to the first separator. -/
theorem append_sep_inj {α : Type _} {c : α} {x x' z z' : List α} (hx : c ∉ x) (hx' : c ∉ x')
    (h : x ++ c :: z = x' ++ c :: z') : x = x' ∧ z = z' := by
  induction x generalizing x' with
  | nil =>
    cases x' with
    | nil => exact ⟨rfl, (List.cons.inj h).2⟩
    | cons a x' => exact absurd ((List.cons.inj h).1 ▸ List.mem_cons_self) hx'
  | cons a x ih =>
    cases x' with
    | nil => exact absurd ((List.cons.inj h).1 ▸ List.mem_cons_self) hx
    | cons a' x' =>
      obtain ⟨rfl, htail⟩ := List.cons.inj h
      obtain ⟨rfl, rfl⟩ := ih (fun hc => hx (List.mem_cons_of_mem _ hc))
        (fun hc => hx' (List.mem_cons_of_mem _ hc)) htail
      exact ⟨rfl, rfl⟩

/-- The number of an invoice can be read off its id. -/
theorem seq_of_invoiceId {a b : Int} {m n : Nat} {r t : String}
    (h : invoiceId a m r = invoiceId b n t) : m = n := by
  have hlist := congrArg String.toList h
  unfold invoiceId at hlist
  simp only [String.toList_append, List.append_assoc] at hlist
  have hrest := List.append_cancel_left hlist
  have hletter : ∀ {z : Int}, 'n' ∉ (toString z).toList := by
    intro z hmem
    rcases Decimal.mem_toString_int hmem with h | h <;> exact absurd h (by decide)
  have hmark : ∀ {k : Nat}, 'x' ∉ (toString k).toList := by
    intro k hmem
    exact absurd (Decimal.isDigit_of_mem_toString hmem) (by decide)
  -- the amount has no letter, and the number ends at the next one
  obtain ⟨-, hnumber⟩ := append_sep_inj hletter hletter hrest
  obtain ⟨hsame, -⟩ := append_sep_inj hmark hmark hnumber
  have hdigits : Nat.toDigits 10 m = Nat.toDigits 10 n := by
    rw [← Decimal.toList_toString, ← Decimal.toList_toString]
    exact hsame
  have hvalue := congrArg (Nat.ofDigitChars 10 · 0) hdigits
  simpa only [Nat.ofDigitChars_ten_toDigits] using hvalue

/-! ## The page -/

structure Page where
  registry : Registry
  rails : List MockRail

def Page.load : Page := ⟨.empty, []⟩

namespace MockPage

/-- A call with what it returned, on the rail with this index. -/
inductive Event where
  | create (lockCodeHash : String) (budgetCkb : Int) (owner session : KeyPair)
  | openChannel (i : Nat) (budgetCkb : Int) (result : Except MockFailure OpenResult)
  | pay (i : Nat) (costCkb : Int) (result : Except MockFailure Unit)
  | newInvoice (amountCkb : Int) (random id : String)
  | payInvoice (i : Nat) (invoice : String) (result : Except MockFailure Unit)
  | waitInvoicePaid (invoice : String)
  | close (i : Nat) (result : Except MockFailure SettleResult)

/-- One call that returns. `waitInvoicePaid` resolves once it finds the flag set. -/
inductive Step (P : Platform) : Page → Event → Page → Prop where
  | create {page : Page} {lockCodeHash : String} {budgetCkb : Int} {owner session : KeyPair}
      {rail : MockRail} (call : MockRail.create P lockCodeHash budgetCkb owner session = .ok rail) :
      Step P page (.create lockCodeHash budgetCkb owner session)
        { page with rails := page.rails ++ [rail] }
  | openChannel {page : Page} {i : Nat} {rail rail' : MockRail} {budgetCkb : Int}
      {result : Except MockFailure OpenResult} (known : page.rails[i]? = some rail)
      (call : rail.openChannel P budgetCkb = some (result, rail')) :
      Step P page (.openChannel i budgetCkb result) { page with rails := page.rails.set i rail' }
  | pay {page : Page} {i : Nat} {rail rail' : MockRail} {costCkb : Int}
      {result : Except MockFailure Unit} (known : page.rails[i]? = some rail)
      (call : rail.pay costCkb = some (result, rail')) :
      Step P page (.pay i costCkb result) { page with rails := page.rails.set i rail' }
  | newInvoice {page : Page} {amountCkb : Int} {random id : String} {registry : Registry}
      (call : page.registry.newInvoice amountCkb random = (id, registry)) :
      Step P page (.newInvoice amountCkb random id) { page with registry }
  | payInvoice {page : Page} {i : Nat} {rail rail' : MockRail} {invoice : String}
      {registry : Registry} {result : Except MockFailure Unit}
      (known : page.rails[i]? = some rail)
      (call : MockRail.payInvoice invoice (rail, page.registry) =
        some (result, rail', registry)) :
      Step P page (.payInvoice i invoice result) ⟨registry, page.rails.set i rail'⟩
  | waitInvoicePaid {page : Page} {invoice : String} {inv : MockInvoice}
      (known : page.registry.invoices invoice = some inv) (paid : inv.paid = true) :
      Step P page (.waitInvoicePaid invoice) page
  | close {page : Page} {i : Nat} {rail rail' : MockRail}
      {result : Except MockFailure SettleResult} (known : page.rails[i]? = some rail)
      (call : rail.close P = some (result, rail')) :
      Step P page (.close i result) { page with rails := page.rails.set i rail' }

/-! ## What the calls come to -/

def issued (events : List Event) : List String :=
  events.filterMap fun event =>
    match event with
    | .newInvoice _ _ id => some id
    | _ => none

def paidInvoices (events : List Event) : List String :=
  events.filterMap fun event =>
    match event with
    | .payInvoice _ invoice (.ok _) => some invoice
    | _ => none

/-- What a call does to the purse of rail `i`, if the invoices have these amounts. -/
def onPurse (amountOf : String → Int) (i : Nat) (p : Purse) : Event → Purse
  | .openChannel j budgetCkb (.ok _) =>
    if j = i then (p.grant (toShannons budgetCkb).toNat).getD p else p
  | .pay j costCkb (.ok _) => if j = i then (p.spend (toShannons costCkb).toNat).getD p else p
  | .payInvoice j invoice (.ok _) =>
    if j = i then (p.spend (toShannons (amountOf invoice)).toNat).getD p else p
  | .close j _ => if j = i then .closed else p
  | _ => p

/-- The purse of rail `i` after the calls. -/
def purseOf (amountOf : String → Int) (i : Nat) (events : List Event) : Purse :=
  events.foldl (onPurse amountOf i) .unopened

/-! ## The invoices -/

/-- What the registry of the page says of the calls. -/
structure Invoices (events : List Event) (r : Registry) : Prop where
  seq : r.invoiceSeq = (issued events).length
  numbered : ∀ id, (r.invoices id).isSome → ∃ amountCkb n random, n ≤ r.invoiceSeq ∧
    id = invoiceId amountCkb n random
  listed : ∀ id, (r.invoices id).isSome ↔ id ∈ issued events
  distinct : (issued events).Nodup
  amounts : ∀ amountCkb random id, .newInvoice amountCkb random id ∈ events →
    ∃ paid, r.invoices id = some ⟨amountCkb, paid⟩
  flags : ∀ id inv, r.invoices id = some inv → (inv.paid = true ↔ id ∈ paidInvoices events)
  bought : ∀ id ∈ paidInvoices events, (r.invoices id).isSome
  once : (paidInvoices events).Nodup
  seen : ∀ id, .waitInvoicePaid id ∈ events → id ∈ paidInvoices events

variable {P : Platform} {events : List Event} {event : Event} {r r' : Registry} {id : String}

theorem issued_append (events : List Event) (event : Event) :
    issued (events ++ [event]) = issued events ++ issued [event] := List.filterMap_append ..

theorem paidInvoices_append (events : List Event) (event : Event) :
    paidInvoices (events ++ [event]) = paidInvoices events ++ paidInvoices [event] :=
  List.filterMap_append ..

/-- A new element keeps a list without repetition. -/
theorem nodup_concat {α : Type _} {l : List α} {a : α} (hl : l.Nodup) (ha : a ∉ l) :
    (l ++ [a]).Nodup :=
  List.nodup_append.mpr ⟨hl, List.nodup_singleton _, fun _ hb _ hc hbc =>
    ha (List.mem_singleton.mp hc ▸ hbc ▸ hb)⟩

/-- A page that was just loaded has issued no invoice. -/
theorem Invoices.load : Invoices [] .empty where
  seq := rfl
  numbered := fun _ h => by cases h
  listed := fun _ => iff_of_false Bool.false_ne_true List.not_mem_nil
  distinct := List.nodup_nil
  amounts := fun _ _ _ h => by cases h
  flags := fun _ _ h => by cases h
  bought := fun _ h => by cases h
  once := List.nodup_nil
  seen := fun _ h => by cases h

/-- A call that neither issues nor pays. -/
theorem Invoices.append (h : Invoices events r) (hissued : issued [event] = [])
    (hpaid : paidInvoices [event] = []) (hnew : ∀ a random id, event ≠ .newInvoice a random id)
    (hseen : ∀ id, event = .waitInvoicePaid id → id ∈ paidInvoices events) :
    Invoices (events ++ [event]) r := by
  have hissued' : issued (events ++ [event]) = issued events := by
    rw [issued_append, hissued, List.append_nil]
  have hpaid' : paidInvoices (events ++ [event]) = paidInvoices events := by
    rw [paidInvoices_append, hpaid, List.append_nil]
  refine ⟨hissued' ▸ h.seq, h.numbered, hissued' ▸ h.listed, hissued' ▸ h.distinct, ?_,
    hpaid' ▸ h.flags, hpaid' ▸ h.bought, hpaid' ▸ h.once, ?_⟩
  · intro a random id hmem
    rcases List.mem_append.mp hmem with hmem | hmem
    · exact h.amounts a random id hmem
    · exact absurd (List.mem_singleton.mp hmem).symm (hnew a random id)
  · intro id hmem
    rw [hpaid']
    rcases List.mem_append.mp hmem with hmem | hmem
    · exact h.seen id hmem
    · exact hseen id (List.mem_singleton.mp hmem).symm

/-- While the counter counts, the id is new. -/
theorem Invoices.fresh (h : Invoices events r) (amountCkb : Int) (random : String) :
    r.invoices (invoiceId amountCkb (r.invoiceSeq + 1) random) = none := by
  cases hfound : r.invoices (invoiceId amountCkb (r.invoiceSeq + 1) random) with
  | none => rfl
  | some inv =>
    obtain ⟨a, n, t, hle, hid⟩ := h.numbered _ (by rw [hfound]; rfl)
    have := seq_of_invoiceId hid
    omega

/-- An entry under a new id, with the next number. -/
theorem Invoices.insert {amountCkb : Int} {random : String} (h : Invoices events r)
    (hid : id = invoiceId amountCkb (r.invoiceSeq + 1) random) (hfresh : r.invoices id = none)
    (hseq : r'.invoiceSeq = r.invoiceSeq + 1) (hself : r'.invoices id = some ⟨amountCkb, false⟩)
    (hother : ∀ j, j ≠ id → r'.invoices j = r.invoices j) :
    Invoices (events ++ [.newInvoice amountCkb random id]) r' := by
  have hnot : id ∉ issued events := by
    rw [← h.listed id, hfresh]
    exact Bool.false_ne_true
  have hunpaid : id ∉ paidInvoices events := by
    intro hmem
    have hsome := h.bought id hmem
    rw [hfresh] at hsome
    cases hsome
  have hissued : issued (events ++ [.newInvoice amountCkb random id]) = issued events ++ [id] :=
    issued_append ..
  have hpaid :
      paidInvoices (events ++ [.newInvoice amountCkb random id]) = paidInvoices events := by
    rw [paidInvoices_append]
    exact List.append_nil _
  constructor
  · rw [hissued, List.length_append, hseq, h.seq]
    rfl
  · intro j hj
    by_cases hji : j = id
    · exact ⟨amountCkb, _, random, Nat.le_of_eq hseq.symm, hji.trans hid⟩
    · obtain ⟨a, n, t, hle, hn⟩ := h.numbered j (by rwa [hother j hji] at hj)
      exact ⟨a, n, t, by omega, hn⟩
  · intro j
    rw [hissued, List.mem_append, List.mem_singleton, ← h.listed j]
    by_cases hji : j = id
    · simp [hji, hself]
    · simp [hji, hother j hji]
  · rw [hissued]
    exact nodup_concat h.distinct hnot
  · intro a t j hmem
    rcases List.mem_append.mp hmem with hmem | hmem
    · obtain ⟨paid, hj⟩ := h.amounts a t j hmem
      have hji : j ≠ id := by
        rintro rfl
        cases hfresh.symm.trans hj
      exact ⟨paid, (hother j hji).trans hj⟩
    · cases List.mem_singleton.mp hmem
      exact ⟨false, hself⟩
  · intro j inv hj
    rw [hpaid]
    by_cases hji : j = id
    · subst hji
      cases hself.symm.trans hj
      exact iff_of_false Bool.false_ne_true hunpaid
    · exact h.flags j inv ((hother j hji).symm.trans hj)
  · intro j hj
    rw [hpaid] at hj
    have hji : j ≠ id := fun hji => hunpaid (hji ▸ hj)
    rw [hother j hji]
    exact h.bought j hj
  · rw [hpaid]
    exact h.once
  · intro j hmem
    rw [hpaid]
    rcases List.mem_append.mp hmem with hmem | hmem
    · exact h.seen j hmem
    · cases List.mem_singleton.mp hmem

/-- The flag of an invoice that is not paid. -/
theorem Invoices.payInvoice {i : Nat} {inv : MockInvoice} (h : Invoices events r)
    (hinv : r.invoices id = some inv) (hunpaid : inv.paid = false)
    (hseq : r'.invoiceSeq = r.invoiceSeq)
    (hself : r'.invoices id = some { inv with paid := true })
    (hother : ∀ j, j ≠ id → r'.invoices j = r.invoices j) :
    Invoices (events ++ [.payInvoice i id (.ok ())]) r' := by
  have hnot : id ∉ paidInvoices events := by
    rw [← h.flags id inv hinv, hunpaid]
    exact Bool.false_ne_true
  have hissued : issued (events ++ [.payInvoice i id (.ok ())]) = issued events := by
    rw [issued_append]
    exact List.append_nil _
  have hpaid : paidInvoices (events ++ [.payInvoice i id (.ok ())]) = paidInvoices events ++ [id] :=
    paidInvoices_append ..
  have hsome : ∀ j, (r'.invoices j).isSome = (r.invoices j).isSome := by
    intro j
    by_cases hji : j = id
    · rw [hji, hself, hinv]
      rfl
    · rw [hother j hji]
  constructor
  · rw [hissued, hseq]
    exact h.seq
  · intro j hj
    rw [hseq]
    exact h.numbered j ((hsome j).symm.trans hj)
  · intro j
    rw [hissued, hsome]
    exact h.listed j
  · rw [hissued]
    exact h.distinct
  · intro a t j hmem
    rcases List.mem_append.mp hmem with hmem | hmem
    · obtain ⟨paid, hj⟩ := h.amounts a t j hmem
      by_cases hji : j = id
      · subst hji
        cases hinv.symm.trans hj
        exact ⟨true, hself⟩
      · exact ⟨paid, (hother j hji).trans hj⟩
    · cases List.mem_singleton.mp hmem
  · intro j inv' hj
    rw [hpaid, List.mem_append, List.mem_singleton]
    by_cases hji : j = id
    · subst hji
      cases hself.symm.trans hj
      simp
    · rw [h.flags j inv' ((hother j hji).symm.trans hj)]
      simp [hji]
  · intro j hj
    rw [hsome]
    rcases List.mem_append.mp (hpaid ▸ hj) with hj | hj
    · exact h.bought j hj
    · rw [List.mem_singleton.mp hj, hinv]
      rfl
  · rw [hpaid]
    exact nodup_concat h.once hnot
  · intro j hmem
    rw [hpaid]
    rcases List.mem_append.mp hmem with hmem | hmem
    · exact List.mem_append_left _ (h.seen j hmem)
    · cases List.mem_singleton.mp hmem

/-! ## The rails -/

/-- The invoices that are there have these amounts. -/
def Prices (r : Registry) (amountOf : String → Int) : Prop :=
  ∀ id inv, r.invoices id = some inv → amountOf id = inv.amountCkb

/-- A registry prices its own invoices. -/
theorem prices_amountOf (r : Registry) : Prices r r.amountOf := by
  intro id inv hinv
  unfold Registry.amountOf
  rw [hinv]
  rfl

/-- Every rail keeps the accounts of its purse. -/
structure Rails (P : Platform) (events : List Event) (page : Page) : Prop where
  unopened : ∀ amountOf i, page.rails.length ≤ i → purseOf amountOf i events = .unopened
  keeps : ∀ amountOf, Prices page.registry amountOf →
    ∀ (i : Nat) (rail : MockRail), page.rails[i]? = some rail → ∃ cfg,
      rail.ch.Keeps P cfg (purseOf amountOf i events)

variable {page page' : Page} {rail rail' : MockRail} {i : Nat}

theorem purseOf_append (amountOf : String → Int) (i : Nat) (events : List Event) (event : Event) :
    purseOf amountOf i (events ++ [event]) =
      onPurse amountOf i (purseOf amountOf i events) event := List.foldl_append ..

/-- A call that is none of the rails'. -/
theorem Rails.append (h : Rails P events page) (hrails : page'.rails = page.rails)
    (hprices : ∀ amountOf, Prices page'.registry amountOf → Prices page.registry amountOf)
    (hpurse : ∀ amountOf i p, onPurse amountOf i p event = p) :
    Rails P (events ++ [event]) page' where
  unopened := by
    intro amountOf i hi
    rw [purseOf_append, hpurse]
    exact h.unopened amountOf i (hrails ▸ hi)
  keeps := by
    intro amountOf hamounts i rail hrail
    rw [purseOf_append, hpurse]
    exact h.keeps amountOf (hprices amountOf hamounts) i rail (hrails ▸ hrail)

/-- A call of one rail. -/
theorem Rails.set (h : Rails P events page) (known : page.rails[i]? = some rail)
    (hrails : page'.rails = page.rails.set i rail')
    (hprices : ∀ amountOf, Prices page'.registry amountOf → Prices page.registry amountOf)
    (hother : ∀ amountOf j p, i ≠ j → onPurse amountOf j p event = p)
    (hself : ∀ amountOf, Prices page.registry amountOf → ∀ cfg p, rail.ch.Keeps P cfg p →
      rail'.ch.Keeps P cfg (onPurse amountOf i p event)) :
    Rails P (events ++ [event]) page' where
  unopened := by
    intro amountOf j hj
    obtain ⟨hlt, -⟩ := List.getElem?_eq_some_iff.mp known
    rw [hrails, List.length_set] at hj
    rw [purseOf_append, hother amountOf j _ (by omega)]
    exact h.unopened amountOf j hj
  keeps := by
    intro amountOf hamounts j railj hrailj
    have hamounts' := hprices amountOf hamounts
    rw [purseOf_append]
    rw [hrails] at hrailj
    by_cases hij : i = j
    · subst hij
      obtain ⟨hlt, -⟩ := List.getElem?_eq_some_iff.mp known
      rw [List.getElem?_set_self hlt] at hrailj
      cases hrailj
      obtain ⟨cfg, hkeeps⟩ := h.keeps amountOf hamounts' i rail known
      exact ⟨cfg, hself amountOf hamounts' cfg _ hkeeps⟩
    · rw [List.getElem?_set_ne hij] at hrailj
      rw [hother amountOf j _ hij]
      exact h.keeps amountOf hamounts' j railj hrailj

/-- A new rail starts with an empty purse, and the others keep theirs. -/
theorem Rails.create {lockCodeHash : String} {budgetCkb : Int} {owner session : KeyPair}
    (h : Rails P events page)
    (hcall : MockRail.create P lockCodeHash budgetCkb owner session = .ok rail) :
    Rails P (events ++ [.create lockCodeHash budgetCkb owner session])
      { page with rails := page.rails ++ [rail] } where
  unopened := by
    intro amountOf i hi
    rw [List.length_append] at hi
    rw [purseOf_append]
    exact h.unopened amountOf i (by omega)
  keeps := by
    intro amountOf hamounts i railj hrailj
    rw [purseOf_append]
    rcases Nat.lt_or_ge i page.rails.length with hlt | hge
    · rw [List.getElem?_append_left hlt] at hrailj
      exact h.keeps amountOf hamounts i railj hrailj
    · -- no call so far was of the new rail
      rw [List.getElem?_append_right hge] at hrailj
      have hrail : railj = rail := List.mem_singleton.mp (List.mem_of_getElem? hrailj)
      show ∃ cfg, railj.ch.Keeps P cfg (purseOf amountOf i events)
      rw [h.unopened amountOf i hge, hrail]
      exact MockRail.exists_keeps_of_create hcall

/-- The rail's channel follows its purse through an opening, whatever it answers. -/
theorem onPurse_openChannel {result : Except MockFailure OpenResult} {budgetCkb : Int}
    {cfg : Sdk.ChannelConfig} {p : Purse} (hkeeps : rail.ch.Keeps P cfg p)
    (hcall : rail.openChannel P budgetCkb = some (result, rail')) (amountOf : String → Int) :
    rail'.ch.Keeps P cfg (onPurse amountOf i p (.openChannel i budgetCkb result)) := by
  rcases MockRail.openChannel_spec hkeeps budgetCkb with ⟨q, ch, opened, hq, hkeeps', hopen⟩ |
    ⟨-, e, hopen⟩
  · cases hopen.symm.trans hcall
    simpa [onPurse, hq] using hkeeps'
  · cases hopen.symm.trans hcall
    exact hkeeps

/-- The rail's channel follows its purse through a payment, whatever it answers. -/
theorem onPurse_pay {result : Except MockFailure Unit} {costCkb : Int} {cfg : Sdk.ChannelConfig}
    {p : Purse} (hkeeps : rail.ch.Keeps P cfg p) (hcall : rail.pay costCkb = some (result, rail'))
    (amountOf : String → Int) :
    rail'.ch.Keeps P cfg (onPurse amountOf i p (.pay i costCkb result)) := by
  rcases MockRail.pay_spec hkeeps costCkb with ⟨q, ch, hq, hkeeps', hpay⟩ | ⟨-, e, hpay⟩
  · cases hpay.symm.trans hcall
    simpa [onPurse, hq] using hkeeps'
  · cases hpay.symm.trans hcall
    exact hkeeps

/-- The rail's channel follows its purse through the payment of an invoice, whatever it answers. -/
theorem onPurse_payInvoice {result : Except MockFailure Unit} {invoice : String}
    {cfg : Sdk.ChannelConfig} {p : Purse} (hkeeps : rail.ch.Keeps P cfg p)
    (hcall : MockRail.payInvoice invoice (rail, r) = some (result, rail', r'))
    {amountOf : String → Int} (hamounts : Prices r amountOf) :
    rail'.ch.Keeps P cfg (onPurse amountOf i p (.payInvoice i invoice result)) := by
  rcases MockRail.payInvoice_spec hkeeps r invoice with
    ⟨inv, q, ch, hinv, -, hq, hkeeps', hpay⟩ | ⟨-, e, hpay⟩
  · cases hpay.symm.trans hcall
    simpa [onPurse, hamounts invoice inv hinv, hq] using hkeeps'
  · cases hpay.symm.trans hcall
    exact hkeeps

/-- The rail's channel follows its purse through a close, whatever it answers. -/
theorem onPurse_close {result : Except MockFailure SettleResult} {cfg : Sdk.ChannelConfig}
    {p : Purse} (hkeeps : rail.ch.Keeps P cfg p) (hcall : rail.close P = some (result, rail'))
    (amountOf : String → Int) :
    rail'.ch.Keeps P cfg (onPurse amountOf i p (.close i result)) := by
  have hclosed : onPurse amountOf i p (.close i result) = .closed := if_pos rfl
  rw [hclosed]
  rcases MockRail.close_spec hkeeps with ⟨a, hash, -, hclose⟩ | ⟨-, e, hclose⟩
  · cases hclose.symm.trans hcall
    exact .closed
  · cases hclose.symm.trans hcall
    exact .closed

/-! ## A run -/

/-- Both accounts after a call. -/
theorem step_keeps (hinvoices : Invoices events page.registry) (hrails : Rails P events page)
    (hfew : events.length + 1 < 2 ^ 53) (step : Step P page event page') :
    Invoices (events ++ [event]) page'.registry ∧ Rails P (events ++ [event]) page' := by
  cases step with
  | create call => exact ⟨hinvoices.append rfl rfl (by simp) (by simp), hrails.create call⟩
  | @openChannel i rail rail' budgetCkb result known call =>
    refine ⟨hinvoices.append rfl rfl (by simp) (by simp), hrails.set known rfl (fun _ h => h) ?_
      fun amountOf _ cfg p hkeeps => onPurse_openChannel hkeeps call amountOf⟩
    intro amountOf j p hij
    cases result <;> simp [onPurse, hij]
  | @pay i rail rail' costCkb result known call =>
    refine ⟨hinvoices.append rfl rfl (by simp) (by simp), hrails.set known rfl (fun _ h => h) ?_
      fun amountOf _ cfg p hkeeps => onPurse_pay hkeeps call amountOf⟩
    intro amountOf j p hij
    cases result <;> simp [onPurse, hij]
  | @newInvoice amountCkb random id registry call =>
    have hseq : page.registry.invoiceSeq + 1 < 2 ^ 53 := by
      have hlength : (issued events).length ≤ events.length := List.length_filterMap_le ..
      rw [hinvoices.seq]
      omega
    unfold Registry.newInvoice at call
    simp only [roundToDouble_of_lt hseq, Prod.mk.injEq] at call
    obtain ⟨hid, rfl⟩ := call
    have hfresh : page.registry.invoices id = none := hid ▸ hinvoices.fresh amountCkb random
    have hother : ∀ j, j ≠ id → Function.update page.registry.invoices id
        (some ⟨amountCkb, false⟩) j = page.registry.invoices j :=
      fun j hj => Function.update_of_ne hj _ _
    rw [hid]
    refine ⟨hinvoices.insert hid.symm hfresh rfl (Function.update_self ..) hother,
      hrails.append rfl ?_ fun _ _ _ => rfl⟩
    intro amountOf hamounts j inv hj
    refine hamounts j inv ?_
    rw [← hj]
    exact hother j (by rintro rfl; cases hfresh.symm.trans hj)
  | @payInvoice i rail rail' invoice registry result known call =>
    obtain ⟨cfg, hkeeps⟩ := hrails.keeps _ (prices_amountOf _) i rail known
    have hrails' : (∀ amountOf, Prices registry amountOf → Prices page.registry amountOf) →
        (∀ amountOf j p, i ≠ j → onPurse amountOf j p (.payInvoice i invoice result) = p) →
        Rails P (events ++ [.payInvoice i invoice result])
          ⟨registry, page.rails.set i rail'⟩ :=
      fun hprices hother => hrails.set known rfl hprices hother
        fun amountOf hamounts cfg p hkeeps => onPurse_payInvoice hkeeps call hamounts
    rcases MockRail.payInvoice_spec hkeeps page.registry invoice with
      ⟨inv, q, ch, hinv, hunpaid, -, -, hpay⟩ | ⟨-, e, hpay⟩
    · cases hpay.symm.trans call
      have hother : ∀ j, j ≠ invoice → Function.update page.registry.invoices invoice
          (some { inv with paid := true }) j = page.registry.invoices j :=
        fun j hj => Function.update_of_ne hj _ _
      refine ⟨hinvoices.payInvoice hinv hunpaid rfl (Function.update_self ..) hother,
        hrails' ?_ fun amountOf j p hij => if_neg hij⟩
      intro amountOf hamounts j inv' hj
      by_cases hji : j = invoice
      · subst hji
        cases hinv.symm.trans hj
        exact hamounts j { inv with paid := true } (Function.update_self ..)
      · exact hamounts j inv' ((hother j hji).trans hj)
    · cases hpay.symm.trans call
      exact ⟨hinvoices.append rfl rfl (by simp) (by simp),
        hrails' (fun _ h => h) fun _ _ _ _ => rfl⟩
  | waitInvoicePaid known paid =>
    refine ⟨hinvoices.append rfl rfl (by simp) ?_, hrails.append rfl (fun _ h => h) ?_⟩
    · rintro _ ⟨⟩
      exact (hinvoices.flags _ _ known).mp paid
    · exact fun _ _ _ => rfl
  | close known call =>
    refine ⟨hinvoices.append rfl rfl (by simp) (by simp), hrails.set known rfl (fun _ h => h) ?_
      fun amountOf _ cfg p hkeeps => onPurse_close hkeeps call amountOf⟩
    intro amountOf j p hij
    exact if_neg hij

/-- **What a run preserves**, by induction on the events. -/
theorem run_keeps (run : Trace (Step P) Page.load events page) (hfew : events.length < 2 ^ 53) :
    Invoices events page.registry ∧ Rails P events page := by
  refine run.invariant (fun events page => events.length < 2 ^ 53 →
    Invoices events page.registry ∧ Rails P events page) ?_ ?_ hfew
  · intro _
    exact ⟨.load, ⟨fun _ _ _ => rfl, fun _ _ _ _ hrail => by cases hrail⟩⟩
  · intro events page event page' ih step hlength
    rw [List.length_append, List.length_singleton] at hlength
    obtain ⟨hinvoices, hrails⟩ := ih (by omega)
    exact step_keeps hinvoices hrails hlength step

/-! ## The accounts -/

/-- What the calls of a rail with this purse would return. -/
structure Answers (P : Platform) (r : Registry) (rail : MockRail) (p : Purse) : Prop where
  spentCkb : rail.spentCkb = some (p.spent / CKB)
  remainingCkb : rail.remainingCkb = some (p.remaining / CKB)
  openChannel : ∀ budgetCkb, ∃ result rail', rail.openChannel P budgetCkb = some (result, rail') ∧
    (result.isOk = true ↔ (p.grant (toShannons budgetCkb).toNat).isSome = true)
  pay : ∀ costCkb, ∃ result rail', rail.pay costCkb = some (result, rail') ∧
    (result.isOk = true ↔ (p.spend (toShannons costCkb).toNat).isSome = true)
  payInvoice : ∀ invoice, ∃ result after,
    MockRail.payInvoice invoice (rail, r) = some (result, after) ∧
      (result.isOk = true ↔ ∃ inv, r.invoices invoice = some inv ∧ inv.paid = false ∧
        (p.spend (toShannons inv.amountCkb).toNat).isSome = true)
  close : ∃ result rail', rail.close P = some (result, rail') ∧
    (result.isOk = true ↔ p.settle.isSome = true) ∧
    ∀ settled, result = .ok settled → settled.localCkb = (p.remaining / CKB : Nat) ∧
      settled.remoteCkb = (p.spent / CKB : Nat)

/-- A rail whose channel keeps a purse answers from that purse. -/
theorem answers_of_keeps {cfg : Sdk.ChannelConfig} {p : Purse} (h : rail.ch.Keeps P cfg p)
    (r : Registry) : Answers P r rail p where
  spentCkb := MockRail.spentCkb_eq h
  remainingCkb := MockRail.remainingCkb_eq h
  openChannel := by
    intro budgetCkb
    rcases MockRail.openChannel_spec h budgetCkb with ⟨q, ch, result, hq, -, hopen⟩ |
      ⟨hnone, e, hopen⟩
    · exact ⟨_, _, hopen, iff_of_true rfl (by rw [hq]; rfl)⟩
    · exact ⟨_, _, hopen, iff_of_false Bool.false_ne_true (by rw [hnone]; exact Bool.false_ne_true)⟩
  pay := by
    intro costCkb
    rcases MockRail.pay_spec h costCkb with ⟨q, ch, hq, -, hpay⟩ | ⟨hnone, e, hpay⟩
    · exact ⟨_, _, hpay, iff_of_true rfl (by rw [hq]; rfl)⟩
    · exact ⟨_, _, hpay, iff_of_false Bool.false_ne_true (by rw [hnone]; exact Bool.false_ne_true)⟩
  payInvoice := by
    intro invoice
    rcases MockRail.payInvoice_spec h r invoice with
      ⟨inv, q, ch, hinv, hunpaid, hq, -, hpay⟩ | ⟨hnone, e, hpay⟩
    · exact ⟨_, _, hpay, iff_of_true rfl ⟨inv, hinv, hunpaid, by rw [hq]; rfl⟩⟩
    · refine ⟨_, _, hpay, iff_of_false Bool.false_ne_true ?_⟩
      rintro ⟨inv, hinv, hunpaid, hsome⟩
      rw [hnone inv hinv hunpaid] at hsome
      cases hsome
  close := by
    rcases MockRail.close_spec h with ⟨a, hash, ha, hclose⟩ | ⟨hnone, e, hclose⟩
    · refine ⟨_, _, hclose, iff_of_true rfl (by rw [ha]; rfl), ?_⟩
      rintro _ ⟨⟩
      unfold Purse.remaining Purse.spent
      rw [ha]
      exact ⟨rfl, rfl⟩
    · refine ⟨_, _, hclose, iff_of_false Bool.false_ne_true ?_, fun _ h => by cases h⟩
      rw [hnone]
      exact Bool.false_ne_true

/-- What holds of a page after the calls. -/
structure PageAccounts (P : Platform) (events : List Event) (page : Page) : Prop where
  /-- Every invoice has its own id. -/
  distinct : (issued events).Nodup
  /-- No invoice is paid twice, whichever rails try. -/
  once : (paidInvoices events).Nodup
  bought : ∀ id ∈ paidInvoices events, id ∈ issued events
  seen : ∀ id, .waitInvoicePaid id ∈ events → id ∈ paidInvoices events
  amounts : ∀ amountCkb random id, .newInvoice amountCkb random id ∈ events →
    ∃ paid, page.registry.invoices id = some ⟨amountCkb, paid⟩ ∧
      (paid = true ↔ id ∈ paidInvoices events)
  rails : ∀ (i : Nat) (rail : MockRail), page.rails[i]? = some rail →
    Answers P page.registry rail (purseOf page.registry.amountOf i events)

/-- **The page's accounts are right.** Whatever rails are made on a page and in whatever order their
methods are called: ids are new, an invoice is paid once, and every rail answers as the purse that
its own calls make, the invoices it paid at their amounts. No call traps. -/
theorem mock_page_accounts (P : Platform) (events : List Event) (page : Page)
    (run : Trace (Step P) Page.load events page) (hfew : events.length < 2 ^ 53) :
    PageAccounts P events page := by
  obtain ⟨hinvoices, hrails⟩ := run_keeps run hfew
  refine ⟨hinvoices.distinct, hinvoices.once, ?_, hinvoices.seen, ?_, ?_⟩
  · intro id hid
    exact (hinvoices.listed id).mp (hinvoices.bought id hid)
  · intro amountCkb random id hmem
    obtain ⟨paid, hinv⟩ := hinvoices.amounts amountCkb random id hmem
    exact ⟨paid, hinv, hinvoices.flags id _ hinv⟩
  · intro i rail hrail
    obtain ⟨cfg, hkeeps⟩ := hrails.keeps _ (prices_amountOf _) i rail hrail
    exact answers_of_keeps hkeeps page.registry

/-! ### A rail that pays its own invoice -/

def demoKey (n : UInt8) : KeyPair := ⟨sampleKey n, fun _ => sampleSig⟩

/-- A budget of 5 CKB, of which an invoice of 2 CKB is paid. -/
theorem mock_page_accounts_one_invoice :
    ∃ events page id, Trace (Step .sample) Page.load events page ∧ paidInvoices events = [id] ∧
      PageAccounts .sample events page := by
  let cfg := MockRail.config .sample (sampleHash 8) 5 (demoKey 1) (demoKey 2)
  let rail : MockRail := ⟨demoKey 1, demoKey 2, ⟨some (.new cfg .new)⟩⟩
  have hcreate : MockRail.create .sample (hexout (sampleHash 8).toList) 5 (demoKey 1) (demoKey 2) =
      .ok rail :=
    MockRail.create_eq (Platform.writesScripts_molecule _ _) (sampleHash 8) 5 _ _
  have hnew : rail.ch.Keeps .sample cfg .unopened := .unopened
  rcases MockRail.openChannel_spec hnew 5 with ⟨q, ch, result, hq, hkeeps, hopen⟩ | ⟨hnone, -⟩
  · cases hq
    let opened : MockRail := { rail with ch }
    have hopened : opened.ch.Keeps .sample cfg (.live (.grant (toShannons 5).toNat)) := hkeeps
    let id := (Registry.empty.newInvoice 2 "").1
    let registry := (Registry.empty.newInvoice 2 "").2
    have hinv : registry.invoices id = some ⟨2, false⟩ := Registry.lookup_newInvoice .empty 2 ""
    have hfirst : Step .sample Page.load
        (.create (hexout (sampleHash 8).toList) 5 (demoKey 1) (demoKey 2)) ⟨.empty, [rail]⟩ :=
      .create hcreate
    have hsecond : Step .sample ⟨.empty, [rail]⟩ (.openChannel 0 5 (.ok result))
        ⟨.empty, [opened]⟩ := .openChannel rfl hopen
    have hthird : Step .sample ⟨.empty, [opened]⟩ (.newInvoice 2 "" id) ⟨registry, [opened]⟩ :=
      .newInvoice rfl
    rcases MockRail.payInvoice_spec hopened registry id with
      ⟨inv, q, ch', -, -, -, -, hpay⟩ | ⟨hnone, -⟩
    · have run := (((Trace.single hfirst).snoc hsecond).snoc hthird).snoc
        (.payInvoice (i := 0) rfl hpay)
      exact ⟨_, _, id, run, rfl,
        mock_page_accounts .sample _ _ run (show 4 < 2 ^ 53 by decide)⟩
    · -- two of five CKB are left to spend
      obtain ⟨b, hb⟩ := Allowance.exists_spend
        (show (toShannons 2).toNat ≤ (Allowance.grant (toShannons 5).toNat).remaining by decide)
      have hspend : (Purse.live (.grant (toShannons 5).toNat)).spend (toShannons 2).toNat =
          some (.live b) := congrArg (Option.map Purse.live) hb
      cases hspend.symm.trans (hnone _ hinv rfl)
  · cases hnone

end MockPage

end CkbController.SdkJs
