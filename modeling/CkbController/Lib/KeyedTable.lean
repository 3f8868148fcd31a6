import CkbController.Lib.Checks
import Mathlib.Data.List.Perm.Basic
import Mathlib.Data.List.Nodup

/-!
# Tables searched by key

A list of entries, each with a key, in which only the first entry of a key counts. `upsert` is the
one update: the first entry with the key is replaced, or a new entry goes to the end. What it does
is said without positions (`Updated`): one lookup changes, and one entry is exchanged for another.

`Same` is equality up to the order that no lookup can see. It is kept by `upsert`
(`upsert_congr`), and updates of different keys commute up to it (`upsert_swap`). On tables with
distinct keys it is just permutation (`same_of_perm`).
-/

namespace KeyedTable

open Checks
open scoped List

variable {κ α ε : Type _} [DecidableEq κ] (key : α → κ)

/-- The first entry with the key. -/
def lookup (k : κ) (l : List α) : Option α := l.find? fun a => key a = k

/-- `f` sees the entry that is there, if any, and gives the one to put in its place. -/
def upsert (k : κ) (f : Option α → Except ε α) : List α → Except ε (List α)
  | [] => do
    let a ← f none
    pure [a]
  | a :: l =>
    if key a = k then do
      let b ← f (some a)
      pure (b :: l)
    else do
      let l' ← upsert k f l
      pure (a :: l')

/-- An update may change an entry, not its key. -/
def KeepsKey (k : κ) (f : Option α → Except ε α) : Prop :=
  ∀ o b, (∀ a, o = some a → key a = k) → f o = .ok b → key b = k

/-- One lookup changes, and one entry takes the place of the old one. -/
structure Updated (k : κ) (new : α) (l l' : List α) : Prop where
  lookup_eq : ∀ j, lookup key j l' = if j = k then some new else lookup key j l
  exchange : ((lookup key k l).toList ++ l').Perm (new :: l)

variable {key}

/-- The first entry answers for its own key. -/
theorem lookup_cons_self {a : α} {l : List α} : lookup key (key a) (a :: l) = some a := by
  simp [lookup]

/-- An entry with another key is passed over. -/
theorem lookup_cons_other {k : κ} {a : α} {l : List α} (h : key a ≠ k) :
    lookup key k (a :: l) = lookup key k l := by
  simp [lookup, h]

/-- What a lookup finds has the key. -/
theorem key_of_lookup {k : κ} {a : α} {l : List α} (h : lookup key k l = some a) : key a = k := by
  have := List.find?_some h
  exact of_decide_eq_true this

/-! ## What an update does -/

/-- Induction on the table, along the search. -/
theorem upsert_error {k : κ} {f : Option α → Except ε α} {l : List α} {e : ε}
    (h : f (lookup key k l) = .error e) : upsert key k f l = .error e := by
  induction l with
  -- no entry of the key: the update makes a new one
  | nil =>
    show (f none >>= fun a => pure [a]) = .error e
    rw [bind_eq_error]
    exact Or.inl h
  | cons a l ih =>
    unfold upsert
    by_cases hk : key a = k
    · -- the first entry of the key is the one that is updated
      subst hk
      rw [lookup_cons_self] at h
      rw [if_pos rfl, bind_eq_error]
      exact Or.inl h
    · rw [lookup_cons_other hk] at h
      rw [if_neg hk, bind_eq_error]
      exact Or.inl (ih h)

/-- An update of the empty table adds an entry. -/
theorem updated_nil {k : κ} {b : α} (hkey : key b = k) : Updated key k b [] [b] := by
  refine ⟨?_, List.Perm.refl _⟩
  intro j
  by_cases hj : j = k
  · rw [if_pos hj, hj, ← hkey, lookup_cons_self]
  · rw [if_neg hj, lookup_cons_other (by rw [hkey]; exact Ne.symm hj)]

/-- An update that finds its key in front exchanges that entry. -/
theorem updated_head {a b : α} (l : List α) (hkey : key b = key a) :
    Updated key (key a) b (a :: l) (b :: l) := by
  constructor
  · intro j
    by_cases hj : j = key a
    · rw [if_pos hj, hj, ← hkey, lookup_cons_self]
    · rw [if_neg hj, lookup_cons_other (by rw [hkey]; exact Ne.symm hj),
        lookup_cons_other (Ne.symm hj)]
  · rw [lookup_cons_self]
    exact List.Perm.swap b a l

/-- An entry with another key stays in front. -/
theorem Updated.cons {k : κ} {a b : α} {l l' : List α} (hk : key a ≠ k)
    (h : Updated key k b l l') : Updated key k b (a :: l) (a :: l') := by
  constructor
  · intro j
    by_cases hj : key a = j
    · have hne : j ≠ k := by
        rw [← hj]
        exact hk
      rw [if_neg hne, ← hj, lookup_cons_self, lookup_cons_self]
    · rw [lookup_cons_other hj, lookup_cons_other hj, h.lookup_eq j]
  · rw [lookup_cons_other hk]
    calc ((lookup key k l).toList ++ a :: l').Perm
          (a :: ((lookup key k l).toList ++ l')) := List.perm_middle
      _ ~ a :: b :: l := h.exchange.cons a
      _ ~ b :: a :: l := List.Perm.swap b a l

/-- **What `upsert` does.** It succeeds exactly when its function does on the entry that is there,
and then it is an update. -/
theorem upsert_ok {k : κ} {f : Option α → Except ε α} {l : List α} {b : α} (hkey : key b = k)
    (h : f (lookup key k l) = .ok b) :
    ∃ l', upsert key k f l = .ok l' ∧ Updated key k b l l' := by
  induction l with
  | nil => exact ⟨[b], bind_eq_ok.mpr ⟨b, h, rfl⟩, updated_nil hkey⟩
  | cons a l ih =>
    unfold upsert
    by_cases hk : key a = k
    · -- the first entry of the key is exchanged
      subst hk
      rw [lookup_cons_self] at h
      rw [if_pos rfl]
      exact ⟨b :: l, bind_eq_ok.mpr ⟨b, h, rfl⟩, updated_head l hkey⟩
    · -- another entry stays, and the search goes on behind it
      rw [lookup_cons_other hk] at h
      rw [if_neg hk]
      obtain ⟨l', hl', hupdated⟩ := ih h
      exact ⟨a :: l', bind_eq_ok.mpr ⟨l', hl', rfl⟩, hupdated.cons hk⟩

/-! ## Tables that no lookup tells apart -/

variable (key)

structure Same (l m : List α) : Prop where
  lookup_eq : ∀ k, lookup key k l = lookup key k m
  perm : l.Perm m

variable {key}

/-- Every table is the same as itself. -/
theorem Same.refl (l : List α) : Same key l l := ⟨fun _ => rfl, List.Perm.refl l⟩

/-- `Same` is symmetric. -/
theorem Same.symm {l m : List α} (h : Same key l m) : Same key m l :=
  ⟨fun k => (h.lookup_eq k).symm, h.perm.symm⟩

/-- `Same` is transitive. -/
theorem Same.trans {l m n : List α} (h : Same key l m) (h' : Same key m n) : Same key l n :=
  ⟨fun k => (h.lookup_eq k).trans (h'.lookup_eq k), h.perm.trans h'.perm⟩

/-- The first entry of a key is its only one. -/
theorem lookup_eq_some_iff {k : κ} {a : α} {l : List α} (h : (l.map key).Nodup) :
    lookup key k l = some a ↔ a ∈ l ∧ key a = k := by
  constructor
  · intro hfound
    exact ⟨List.mem_of_find?_eq_some hfound, key_of_lookup hfound⟩
  · rintro ⟨hmem, rfl⟩
    obtain ⟨b, hb⟩ := Option.isSome_iff_exists.mp
      (List.find?_isSome.mpr ⟨a, hmem, decide_eq_true rfl⟩ : (lookup key (key a) l).isSome)
    have hsame : b = a :=
      List.inj_on_of_nodup_map h (List.mem_of_find?_eq_some hb) hmem (key_of_lookup hb)
    exact hsame ▸ hb

/-- On tables with distinct keys any order is the same table. -/
theorem same_of_perm {l m : List α} (hdistinct : (l.map key).Nodup) (h : l.Perm m) :
    Same key l m := by
  have hdistinct' : (m.map key).Nodup := (h.map key).nodup_iff.mp hdistinct
  refine ⟨fun k => Option.ext fun a => ?_, h⟩
  show lookup key k l = some a ↔ lookup key k m = some a
  rw [lookup_eq_some_iff hdistinct, lookup_eq_some_iff hdistinct', h.mem_iff]

/-! ## Updates of equal tables -/

/-- The same update of the same table. -/
theorem Updated.same {k : κ} {new : α} {l l' m m' : List α} (hl : Updated key k new l l')
    (hm : Updated key k new m m') (h : Same key l m) : Same key l' m' := by
  refine ⟨fun j => by rw [hl.lookup_eq, hm.lookup_eq, h.lookup_eq], ?_⟩
  have hexchange : ((lookup key k l).toList ++ l').Perm ((lookup key k l).toList ++ m') := by
    calc ((lookup key k l).toList ++ l').Perm (new :: l) := hl.exchange
      _ ~ new :: m := h.perm.cons new
      _ ~ (lookup key k m).toList ++ m' := hm.exchange.symm
      _ = (lookup key k l).toList ++ m' := by rw [h.lookup_eq]
  exact (List.perm_append_left_iff _).mp hexchange

/-- **`upsert` cannot see the order**: on the same table it fails with the same error or leaves the
same table. -/
theorem upsert_congr {k : κ} {f : Option α → Except ε α} {l m : List α} (hf : KeepsKey key k f)
    (h : Same key l m) : Agree (Same key) (upsert key k f l) (upsert key k f m) := by
  cases hstep : f (lookup key k l) with
  | error e =>
    rw [upsert_error hstep, upsert_error (h.lookup_eq k ▸ hstep)]
    exact .error e
  | ok b =>
    have hb : key b = k := hf _ b (fun a ha => key_of_lookup ha) hstep
    obtain ⟨l', hl', hupl⟩ := upsert_ok hb hstep
    obtain ⟨m', hm', hupm⟩ := upsert_ok hb (h.lookup_eq k ▸ hstep)
    rw [hl', hm']
    exact .ok (hupl.same hupm h)

/-! ## Updates of different keys -/

/-- Two updates of different keys, one after the other: both entries are exchanged. -/
theorem Updated.exchange_two {j k : κ} {a b : α} {l m n : List α} (hjk : j ≠ k)
    (hm : Updated key j a l m) (hn : Updated key k b m n) :
    ((lookup key k l).toList ++ ((lookup key j l).toList ++ n)).Perm (b :: a :: l) := by
  have hk : lookup key k m = lookup key k l := by rw [hm.lookup_eq, if_neg (Ne.symm hjk)]
  have hnext := hn.exchange
  rw [hk] at hnext
  calc ((lookup key k l).toList ++ ((lookup key j l).toList ++ n)).Perm
        ((lookup key j l).toList ++ ((lookup key k l).toList ++ n)) := by
          rw [← List.append_assoc, ← List.append_assoc]
          exact List.perm_append_comm.append_right n
    _ ~ (lookup key j l).toList ++ (b :: m) := hnext.append_left _
    _ ~ b :: ((lookup key j l).toList ++ m) := List.perm_middle
    _ ~ b :: a :: l := hm.exchange.cons b

/-- Two updates of different keys leave the same table in either order. -/
theorem Updated.swap {j k : κ} {a b : α} {l m n m' n' : List α} (hjk : j ≠ k)
    (hm : Updated key j a l m) (hn : Updated key k b m n) (hm' : Updated key k b l m')
    (hn' : Updated key j a m' n') : Same key n n' := by
  constructor
  · -- either order leaves the same lookups
    intro i
    rw [hn.lookup_eq, hm.lookup_eq, hn'.lookup_eq, hm'.lookup_eq]
    by_cases hi : i = j
    · rw [if_pos hi, if_neg (by rw [hi]; exact hjk), if_pos hi]
    · rw [if_neg hi, if_neg hi]
  · -- and the same entries, once what was taken out is put back
    have hperm := hm.exchange_two hjk hn
    have hperm' := hm'.exchange_two (Ne.symm hjk) hn'
    have hboth : ((lookup key k l).toList ++ ((lookup key j l).toList ++ n)).Perm
        ((lookup key k l).toList ++ ((lookup key j l).toList ++ n')) := by
      calc ((lookup key k l).toList ++ ((lookup key j l).toList ++ n)).Perm (b :: a :: l) := hperm
        _ ~ a :: b :: l := List.Perm.swap a b l
        _ ~ (lookup key j l).toList ++ ((lookup key k l).toList ++ n') := hperm'.symm
        _ ~ (lookup key k l).toList ++ ((lookup key j l).toList ++ n') := by
          rw [← List.append_assoc, ← List.append_assoc]
          exact List.perm_append_comm.append_right n'
    exact (List.perm_append_left_iff _).mp ((List.perm_append_left_iff _).mp hboth)

/-- **Updates of different keys commute**, in whether they succeed and in what they leave. -/
theorem upsert_swap {j k : κ} {f g : Option α → Except ε α} {l : List α} (hjk : j ≠ k)
    (hf : KeepsKey key j f) (hg : KeepsKey key k g) :
    Option.Rel (Same key)
      ((upsert key j f l).toOption.bind fun m => (upsert key k g m).toOption)
      ((upsert key k g l).toOption.bind fun m => (upsert key j f m).toOption) := by
  cases hfl : f (lookup key j l) with
  | error e =>
    -- `g` does not touch what `f` fails on, so the other order fails too
    rw [upsert_error hfl]
    cases hgl : g (lookup key k l) with
    | error e' =>
      rw [upsert_error hgl]
      exact .none
    | ok b =>
      obtain ⟨m, hm, hup⟩ := upsert_ok (hg _ b (fun a ha => key_of_lookup ha) hgl) hgl
      have hj : f (lookup key j m) = .error e := by rw [hup.lookup_eq, if_neg hjk, hfl]
      rw [hm]
      show Option.Rel _ none (upsert key j f m).toOption
      rw [upsert_error hj]
      exact .none
  | ok a =>
    obtain ⟨m, hm, hup⟩ := upsert_ok (hf _ a (fun a ha => key_of_lookup ha) hfl) hfl
    have hk : lookup key k m = lookup key k l := by rw [hup.lookup_eq, if_neg (Ne.symm hjk)]
    rw [hm]
    show Option.Rel _ (upsert key k g m).toOption _
    cases hgl : g (lookup key k l) with
    | error e' =>
      rw [upsert_error hgl, upsert_error (hk ▸ hgl)]
      exact .none
    | ok b =>
      -- both orders get through, and each update finds what it would have found alone
      have hb := hg _ b (fun a ha => key_of_lookup ha) hgl
      obtain ⟨n, hn, hupn⟩ := upsert_ok hb (hk ▸ hgl)
      obtain ⟨m', hm', hup'⟩ := upsert_ok hb hgl
      have hj : lookup key j m' = lookup key j l := by rw [hup'.lookup_eq, if_neg hjk]
      obtain ⟨n', hn', hupn'⟩ :=
        upsert_ok (hf _ a (fun a ha => key_of_lookup ha) hfl) (hj ▸ hfl)
      rw [hn, hm']
      show Option.Rel _ (some n) (upsert key j f m').toOption
      rw [hn']
      exact .some (hup.swap hjk hupn hup' hupn')

end KeyedTable
