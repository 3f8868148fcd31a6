import Mathlib.Data.List.Basic
import Mathlib.Data.Nat.Log
import Mathlib.Data.Nat.Bitwise

/-!
# Binary hash trees with padded levels and undirected proofs

A tree over a list of nodes is built level by level: an odd level is completed with one padding
node, and neighbours are combined by `pair`. A proof for a node is the list of its siblings from
the bottom up; nothing in it says on which side a sibling stands, so `pair` has to be
commutative for a proof to climb to the root.

Two results are proved, over an arbitrary node type:

* **completeness** (`climb_siblings`) — the siblings of any node climb to the root, and there
  are `⌈log₂ n⌉` of them (`length_siblings`);
* **soundness** (`mem_of_climb_eq_root`) — for `pair a b = hash (join a b)`, whatever climbs to
  the root is the hash of a leaf string, unless the strings hashed on the way and in the tree
  break the hash: two of them collide, or one hashes to the padding node. Nothing is assumed of
  the number of siblings, so this also covers paths of the wrong depth. `mem_level_of_climb` says
  the same of a proof that starts from any node of the tree.
-/

namespace MerkleTree

variable {α : Type _}

/-! ## Levels -/

section Levels

variable (pad : α) (pair : α → α → α)

/-- An odd level is completed with one padding node. -/
def padLevel (level : List α) : List α :=
  if level.length % 2 = 1 then level ++ [pad] else level

/-- `chunks(2).map(|c| f(&c[0], &c[1]))`, on a list of even length. -/
def mapPairs {β : Type _} (f : α → α → β) : List α → List β
  | a :: b :: l => f a b :: mapPairs f l
  | _ => []

def levelUp (level : List α) : List α := mapPairs pair (padLevel pad level)

/-- A padded level is of even length. -/
theorem length_padLevel (level : List α) :
    (padLevel pad level).length = 2 * ((level.length + 1) / 2) := by
  unfold padLevel
  split
  · rw [List.length_append, List.length_singleton]
    omega
  · omega

@[simp] theorem length_mapPairs {β : Type _} (f : α → α → β) :
    ∀ level : List α, (mapPairs f level).length = level.length / 2
  | [] => by simp [mapPairs]
  | [_] => by simp [mapPairs]
  | a :: b :: l => by
    simp only [mapPairs, List.length_cons, length_mapPairs f l]
    omega

/-- The level above has half as many nodes, rounded up. -/
theorem length_levelUp (level : List α) :
    (levelUp pad pair level).length = (level.length + 1) / 2 := by
  rw [levelUp, length_mapPairs, length_padLevel]
  omega

/-- It is shorter, until one node is left. -/
theorem length_levelUp_lt {level : List α} (h : ¬ level.length ≤ 1) :
    (levelUp pad pair level).length < level.length := by
  rw [length_levelUp]
  omega

def collapse (level : List α) : List α :=
  if level.length ≤ 1 then level else collapse (levelUp pad pair level)
termination_by level.length
decreasing_by exact length_levelUp_lt pad pair ‹_›

/-- The proof for node `i`: its sibling on every level, from the bottom up. -/
def siblings (level : List α) (i : Nat) : List α :=
  if level.length ≤ 1 then []
  else (padLevel pad level).getD (i ^^^ 1) pad :: siblings (levelUp pad pair level) (i >>> 1)
termination_by level.length
decreasing_by exact length_levelUp_lt pad pair ‹_›

/-- A level of one node is the root; an empty one has none. -/
theorem collapse_of_le {level : List α} (h : level.length ≤ 1) :
    collapse pad pair level = level := by
  rw [collapse, if_pos h]

/-- A longer level has the root of the level above it. -/
theorem collapse_of_not_le {level : List α} (h : ¬ level.length ≤ 1) :
    collapse pad pair level = collapse pad pair (levelUp pad pair level) := by
  rw [collapse, if_neg h]

/-- The root needs no proof. -/
theorem siblings_of_le {level : List α} (h : level.length ≤ 1) (i : Nat) :
    siblings pad pair level i = [] := by
  rw [siblings, if_pos h]

/-- The sibling on this level, and the proof of the parent. -/
theorem siblings_of_not_le {level : List α} (h : ¬ level.length ≤ 1) (i : Nat) :
    siblings pad pair level i =
      (padLevel pad level).getD (i ^^^ 1) pad ::
        siblings pad pair (levelUp pad pair level) (i / 2) := by
  rw [siblings, if_neg h, Nat.shiftRight_one]

/-- A tree with a leaf has one root. -/
theorem collapse_eq_singleton {level : List α} (h : level ≠ []) :
    ∃ root, collapse pad pair level = [root] := by
  induction level using collapse.induct pad pair with
  | case1 level hle =>
    rw [collapse_of_le pad pair hle]
    have hpos := List.length_pos_iff.mpr h
    exact List.length_eq_one_iff.mp (by omega)
  | case2 level hle ih =>
    rw [collapse_of_not_le pad pair hle]
    apply ih
    apply List.length_pos_iff.mp
    rw [length_levelUp]
    omega

/-- The levels of the tree from the bottom up, completed where they are odd; the last one is the
root. -/
def paddedLevels (level : List α) : List (List α) :=
  if level.length ≤ 1 then [level]
  else padLevel pad level :: paddedLevels (levelUp pad pair level)
termination_by level.length
decreasing_by exact length_levelUp_lt pad pair ‹_›

/-- A level of one node is the only one, and is not padded. -/
theorem paddedLevels_of_le {level : List α} (h : level.length ≤ 1) :
    paddedLevels pad pair level = [level] := by
  rw [paddedLevels, if_pos h]

/-- A longer level is padded, and the levels above it follow. -/
theorem paddedLevels_of_not_le {level : List α} (h : ¬ level.length ≤ 1) :
    paddedLevels pad pair level =
      padLevel pad level :: paddedLevels pad pair (levelUp pad pair level) := by
  rw [paddedLevels, if_neg h]

/-- The top level is what the tree collapses to. -/
theorem getLast?_paddedLevels (level : List α) :
    (paddedLevels pad pair level).getLast? = some (collapse pad pair level) := by
  induction level using collapse.induct pad pair with
  | case1 level hle =>
    rw [paddedLevels_of_le pad pair hle, collapse_of_le pad pair hle]
    rfl
  | case2 level hle ih =>
    rw [paddedLevels_of_not_le pad pair hle, collapse_of_not_le pad pair hle, List.getLast?_cons,
      ih]
    rfl

/-! ## Completeness -/

/-- Two neighbours are combined at half their position. -/
theorem getElem?_mapPairs {β : Type _} (f : α → α → β) :
    ∀ (level : List α) (k : Nat) (a b : α), level[2 * k]? = some a → level[2 * k + 1]? = some b →
      (mapPairs f level)[k]? = some (f a b)
  | [], k, a, b, ha, _ => by cases ha
  | [x], k, a, b, _, hb => by
    rw [List.getElem?_eq_none (by simp)] at hb
    cases hb
  | x :: y :: l, 0, a, b, ha, hb => by
    cases ha
    cases hb
    rfl
  | x :: y :: l, k + 1, a, b, ha, hb => by
    rw [mapPairs, List.getElem?_cons_succ]
    exact getElem?_mapPairs f l k a b ha hb

/-- The other half of a pair stands one place to the right of an even node and one place to the
left of an odd one. -/
theorem xor_one (i : Nat) : i ^^^ 1 = if i % 2 = 0 then i + 1 else i - 1 := by
  rcases Nat.mod_two_eq_zero_or_one i with h | h
  · rw [if_pos h, Nat.xor_one_of_even (Nat.even_iff.mpr h)]
  · rw [if_neg (by omega), Nat.xor_one_of_odd (Nat.odd_iff.mpr h)]

/-- A node and its sibling are combined at the position of the parent, in whatever order they
stand. -/
theorem getElem?_levelUp (hcomm : ∀ a b, pair a b = pair b a) {level : List α} {i : Nat} {a : α}
    (ha : level[i]? = some a) :
    (levelUp pad pair level)[i / 2]? = some (pair a ((padLevel pad level).getD (i ^^^ 1) pad)) := by
  have hi : i < level.length := (List.getElem?_eq_some_iff.mp ha).choose
  have hpad : (padLevel pad level)[i]? = some a := by
    unfold padLevel
    split
    · rw [List.getElem?_append_left hi, ha]
    · exact ha
  -- the padded level is even, so the sibling is there
  have hsib : ∃ b, (padLevel pad level)[i ^^^ 1]? = some b := by
    refine ⟨_, List.getElem?_eq_getElem ?_⟩
    rw [length_padLevel, xor_one]
    split <;> omega
  obtain ⟨b, hb⟩ := hsib
  rw [List.getD_eq_getElem?_getD, hb, Option.getD_some, levelUp]
  rw [xor_one] at hb
  rcases Nat.mod_two_eq_zero_or_one i with h | h
  · rw [if_pos h] at hb
    apply getElem?_mapPairs
    · rw [show 2 * (i / 2) = i from by omega, hpad]
    · rw [show 2 * (i / 2) + 1 = i + 1 from by omega, hb]
  · rw [if_neg (by omega)] at hb
    rw [hcomm a b]
    apply getElem?_mapPairs
    · rw [show 2 * (i / 2) = i - 1 from by omega, hb]
    · rw [show 2 * (i / 2) + 1 = i from by omega, hpad]

/-- **Completeness.** The siblings of a node climb from it to the root. -/
theorem climb_siblings (hcomm : ∀ a b, pair a b = pair b a) {level : List α} {i : Nat} {a : α}
    (ha : level[i]? = some a) :
    collapse pad pair level = [(siblings pad pair level i).foldl pair a] := by
  induction level using collapse.induct pad pair generalizing i a with
  | case1 level hle =>
    have hi : i < level.length := (List.getElem?_eq_some_iff.mp ha).choose
    obtain ⟨x, rfl⟩ := List.length_eq_one_iff.mp (show level.length = 1 by omega)
    rw [collapse_of_le pad pair hle, siblings_of_le pad pair hle]
    rw [show i = 0 from by simpa using hi] at ha
    cases ha
    rfl
  | case2 level hle ih =>
    rw [collapse_of_not_le pad pair hle, siblings_of_not_le pad pair hle, List.foldl_cons]
    exact ih (getElem?_levelUp pad pair hcomm ha)

/-- A proof has one sibling for each level. -/
theorem length_siblings (level : List α) (i : Nat) :
    (siblings pad pair level i).length = Nat.clog 2 level.length := by
  induction level using collapse.induct pad pair generalizing i with
  | case1 level hle =>
    rw [siblings_of_le pad pair hle, Nat.clog_of_right_le_one hle]
    rfl
  | case2 level hle ih =>
    have hstep : Nat.clog 2 level.length = Nat.clog 2 ((level.length + 2 - 1) / 2) + 1 :=
      Nat.clog_of_two_le (by decide) (by omega)
    rw [siblings_of_not_le pad pair hle, List.length_cons, ih, length_levelUp, hstep]
    rfl

/-- Below `2 ^ k` nodes, no proof is longer than `k`. -/
theorem length_siblings_le {level : List α} {k : Nat} (h : level.length ≤ 2 ^ k) (i : Nat) :
    (siblings pad pair level i).length ≤ k := by
  rw [length_siblings]
  exact Nat.clog_le_of_le_pow h

end Levels

/-! ## Soundness

From here on a node is the digest of a string: `hash (join a b)` for an inner node, `hash s` for
a leaf string `s`. -/

section Soundness

variable {β : Type _} (hash : β → α) (join : α → α → β) (pad : α)

def joinStrings (level : List α) : List β :=
  if level.length ≤ 1 then []
  else mapPairs join (padLevel pad level) ++
    joinStrings (levelUp pad (fun a b => hash (join a b)) level)
termination_by level.length
decreasing_by exact length_levelUp_lt pad _ ‹_›

/-- The strings hashed on this level, and on those above it. -/
theorem joinStrings_of_not_le {level : List α} (h : ¬ level.length ≤ 1) :
    joinStrings hash join pad level = mapPairs join (padLevel pad level) ++
      joinStrings hash join pad (levelUp pad (fun a b => hash (join a b)) level) := by
  rw [joinStrings, if_neg h]

/-- The strings hashed for a tree over leaf strings: the leaves and the joins. -/
def treeStrings (leaves : List β) : List β := leaves ++ joinStrings hash join pad (leaves.map hash)

def climbStrings (s : β) : List α → List β
  | [] => [s]
  | sib :: sibs => s :: climbStrings (join (hash s) sib) sibs

/-- A list of strings that breaks the hash: two of them collide, or one hashes to the padding
node. -/
def Breaks (strings : List β) : Prop :=
  (∃ s ∈ strings, ∃ t ∈ strings, s ≠ t ∧ hash s = hash t) ∨ ∃ s ∈ strings, hash s = pad

variable {hash join pad}

/-- More strings break a hash no less. -/
theorem Breaks.mono {strings strings' : List β} (hsub : strings ⊆ strings')
    (h : Breaks hash pad strings) : Breaks hash pad strings' := by
  rcases h with ⟨s, hs, t, ht, hne, heq⟩ | ⟨s, hs, heq⟩
  · exact Or.inl ⟨s, hsub hs, t, hsub ht, hne, heq⟩
  · exact Or.inr ⟨s, hsub hs, heq⟩

/-- While the hash is not broken, a digest stands for one string. -/
theorem eq_of_not_breaks {strings : List β} (hsafe : ¬ Breaks hash pad strings) {s t : β}
    (hs : s ∈ strings) (ht : t ∈ strings) (h : hash s = hash t) : s = t := by
  by_contra hne
  exact hsafe (Or.inl ⟨s, hs, t, ht, hne, h⟩)

/-- While the hash is not broken, no string has the padding for its digest. -/
theorem ne_pad_of_not_breaks {strings : List β} (hsafe : ¬ Breaks hash pad strings) {s : β}
    (hs : s ∈ strings) : hash s ≠ pad :=
  fun h => hsafe (Or.inr ⟨s, hs, h⟩)

/-- What a level is combined to is combined from two of its nodes. -/
theorem mem_of_mem_mapPairs {f : α → α → β} {s : β} :
    ∀ {level : List α}, s ∈ mapPairs f level → ∃ a ∈ level, ∃ b ∈ level, s = f a b
  | [], h => by cases h
  | [_], h => by cases h
  | x :: y :: l, h => by
    rcases List.mem_cons.mp h with rfl | h
    · exact ⟨x, by simp, y, by simp, rfl⟩
    · obtain ⟨a, ha, b, hb, rfl⟩ := mem_of_mem_mapPairs h
      exact ⟨a, by simp [ha], b, by simp [hb], rfl⟩

/-- Padding adds nothing but the padding. -/
theorem mem_padLevel {level : List α} {a : α} (h : a ∈ padLevel pad level) :
    a = pad ∨ a ∈ level := by
  unfold padLevel at h
  split at h
  · rcases List.mem_append.mp h with h | h
    · exact Or.inr h
    · exact Or.inl (by simpa using h)
  · exact Or.inr h

/-- A node of the level above is the digest of a join. -/
theorem mem_levelUp {level : List α} {a : α}
    (h : a ∈ levelUp pad (fun a b => hash (join a b)) level) :
    ∃ s ∈ mapPairs join (padLevel pad level), a = hash s := by
  unfold levelUp at h
  generalize padLevel pad level = padded at h
  induction padded using mapPairs.induct with
  | case1 x y l ih =>
    rcases List.mem_cons.mp h with rfl | h
    · exact ⟨join x y, List.mem_cons_self, rfl⟩
    · obtain ⟨s, hs, rfl⟩ := ih h
      exact ⟨s, List.mem_cons_of_mem _ hs, rfl⟩
  | case2 l hl =>
    rw [mapPairs.eq_2 _ l hl] at h
    cases h

/-- If the nodes of a level are digests of strings in `known`, then so is every node that a join
of the tree above it combines, the padding node apart. -/
theorem joinStrings_closed {known : List β} {level : List α}
    (hlevel : ∀ a ∈ level, ∃ s ∈ known ++ joinStrings hash join pad level, a = hash s) {s : β}
    (hs : s ∈ joinStrings hash join pad level) :
    ∃ a b, s = join a b ∧ ∀ c, c = a ∨ c = b →
      c = pad ∨ ∃ t ∈ known ++ joinStrings hash join pad level, c = hash t := by
  induction level using joinStrings.induct hash join pad generalizing known with
  | case1 level hle =>
    rw [joinStrings, if_pos hle] at hs
    cases hs
  | case2 level hle ih =>
    have hunfold := joinStrings_of_not_le hash join pad hle
    rw [hunfold] at hs hlevel ⊢
    rcases List.mem_append.mp hs with hs | hs
    · -- a join of this level combines members of the padded level
      obtain ⟨a, ha, b, hb, rfl⟩ := mem_of_mem_mapPairs hs
      refine ⟨a, b, rfl, ?_⟩
      rintro c (rfl | rfl)
      · exact (mem_padLevel ha).imp_right (hlevel c)
      · exact (mem_padLevel hb).imp_right (hlevel c)
    · -- a join further up: the joins of this level are known there
      have hup : ∀ a ∈ levelUp pad (fun a b => hash (join a b)) level,
          ∃ s ∈ (known ++ mapPairs join (padLevel pad level)) ++
            joinStrings hash join pad (levelUp pad (fun a b => hash (join a b)) level),
            a = hash s := by
        intro a ha
        obtain ⟨t, ht, rfl⟩ := mem_levelUp ha
        exact ⟨t, by simp [ht], rfl⟩
      obtain ⟨a, b, hab, hmem⟩ := ih hup hs
      rw [List.append_assoc] at hmem
      exact ⟨a, b, hab, hmem⟩

/-- The root is the digest of a string that was hashed for the tree, if every leaf is one of a known
string. -/
theorem exists_string_of_mem_collapse {known : List β} {level : List α}
    (hlevel : ∀ a ∈ level, ∃ s ∈ known ++ joinStrings hash join pad level, a = hash s) {root : α}
    (hroot : root ∈ collapse pad (fun a b => hash (join a b)) level) :
    ∃ s ∈ known ++ joinStrings hash join pad level, root = hash s := by
  -- up to the root, by the levels; each join is known one level further up
  induction level using joinStrings.induct hash join pad generalizing known with
  | case1 level hle =>
    rw [collapse_of_le _ _ hle] at hroot
    exact hlevel root hroot
  | case2 level hle ih =>
    have hunfold := joinStrings_of_not_le hash join pad hle
    rw [collapse_of_not_le _ _ hle] at hroot
    rw [hunfold, ← List.append_assoc]
    refine ih ?_ hroot
    intro a ha
    obtain ⟨t, ht, rfl⟩ := mem_levelUp ha
    exact ⟨t, by simp [ht], rfl⟩

/-- **Soundness.** If the siblings climb from the digest of `s` to the root of the tree over
`leaves`, then `s` is one of the leaf strings, or the strings hashed in the tree and on the climb
break the hash. -/
theorem mem_of_climb_eq_root {leaves strings : List β}
    (hjoin : ∀ a b c d, join a b = join c d → (a = c ∧ b = d) ∨ (a = d ∧ b = c))
    (hleaf : ∀ s ∈ leaves, ∀ a b, s ≠ join a b)
    (htree : treeStrings hash join pad leaves ⊆ strings) (hsafe : ¬ Breaks hash pad strings)
    {root : α} (hroot : collapse pad (fun a b => hash (join a b)) (leaves.map hash) = [root])
    {s : β} (hs : ∀ a b, s ≠ join a b) {sibs : List α}
    (hwalk : climbStrings hash join s sibs ⊆ strings)
    (hclimb : sibs.foldl (fun a b => hash (join a b)) (hash s) = root) : s ∈ leaves := by
  have hknown : ∀ a ∈ leaves.map hash, ∃ t ∈ treeStrings hash join pad leaves, a = hash t := by
    intro a ha
    obtain ⟨t, ht, rfl⟩ := List.mem_map.mp ha
    exact ⟨t, List.mem_append_left _ ht, rfl⟩
  have hrootmem : ∃ t ∈ treeStrings hash join pad leaves, root = hash t :=
    exists_string_of_mem_collapse hknown (by rw [hroot]; exact List.mem_singleton_self root)
  -- every string on the climb is a string of the tree, from the root down
  have hdown : ∀ (sibs : List α) (s : β), climbStrings hash join s sibs ⊆ strings →
      sibs.foldl (fun a b => hash (join a b)) (hash s) = root →
      s ∈ treeStrings hash join pad leaves := by
    intro sibs
    induction sibs with
    | nil =>
      intro s hwalk hclimb
      obtain ⟨t, ht, hrt⟩ := hrootmem
      have hst : s = t := eq_of_not_breaks hsafe (hwalk (by simp [climbStrings])) (htree ht)
        (hclimb.trans hrt)
      rwa [hst]
    | cons sib sibs ih =>
      intro s hwalk hclimb
      have hself : s ∈ strings := hwalk (by simp [climbStrings])
      -- the string one step up joins the digest of `s` with the sibling
      have hup : join (hash s) sib ∈ treeStrings hash join pad leaves :=
        ih _ (fun t ht => hwalk (List.mem_cons_of_mem _ ht)) hclimb
      rcases List.mem_append.mp hup with hup | hup
      · exact absurd rfl (hleaf _ hup (hash s) sib)
      · obtain ⟨a, b, hab, hclosed⟩ := joinStrings_closed hknown hup
        have hone : hash s = a ∨ hash s = b :=
          (hjoin _ _ _ _ hab).imp And.left And.left
        rcases hclosed (hash s) hone with hpad | ⟨t, ht, heq⟩
        · exact absurd hpad (ne_pad_of_not_breaks hsafe hself)
        · rwa [eq_of_not_breaks hsafe hself (htree ht) heq]
  rcases List.mem_append.mp (hdown sibs s hwalk hclimb) with h | h
  · exact h
  · obtain ⟨a, b, hab, -⟩ := joinStrings_closed hknown h
    exact absurd hab (hs a b)

/-! ### Where a proof starts

A proof may start from any node, with any siblings. -/

/-- The strings hashed on the climb from `node`. -/
def proofStrings (hash : β → α) (join : α → α → β) (node : α) : List α → List β
  | [] => []
  | sib :: sibs => join node sib :: proofStrings hash join (hash (join node sib)) sibs

/-- The bottom level has the leaves and perhaps a padding node. -/
theorem mem_bottom {level bottom : List α} {pair : α → α → α} {a : α}
    (hbottom : (paddedLevels pad pair level)[0]? = some bottom) (h : a ∈ bottom) :
    a = pad ∨ a ∈ level := by
  by_cases hle : level.length ≤ 1
  · rw [paddedLevels_of_le pad pair hle] at hbottom
    cases hbottom
    exact Or.inr h
  · rw [paddedLevels_of_not_le pad pair hle] at hbottom
    cases hbottom
    exact mem_padLevel h

/-- Above the bottom, a node is the padding or joins two nodes of the level below it. -/
theorem exists_lower {level upper : List α} {k : Nat}
    (hupper : (paddedLevels pad (fun a b => hash (join a b)) level)[k + 1]? = some upper) :
    ∃ lower, (paddedLevels pad (fun a b => hash (join a b)) level)[k]? = some lower ∧
      ∀ a ∈ upper, a = pad ∨
        ∃ s ∈ mapPairs join lower, s ∈ joinStrings hash join pad level ∧ a = hash s := by
  induction level using joinStrings.induct hash join pad generalizing k with
  | case1 level hle =>
    rw [paddedLevels_of_le _ _ hle] at hupper
    cases hupper
  | case2 level hle ih =>
    rw [paddedLevels_of_not_le _ _ hle, List.getElem?_cons_succ] at hupper
    rw [paddedLevels_of_not_le _ _ hle, joinStrings_of_not_le hash join pad hle]
    cases k with
    -- the first level above the leaves
    | zero =>
      refine ⟨padLevel pad level, rfl, fun a ha => (mem_bottom hupper ha).imp_right fun hup => ?_⟩
      obtain ⟨s, hs, heq⟩ := mem_levelUp hup
      exact ⟨s, hs, List.mem_append_left _ hs, heq⟩
    -- further up, in the tree over the level above
    | succ k =>
      obtain ⟨lower, hlower, hmem⟩ := ih hupper
      refine ⟨lower, hlower, fun a ha => (hmem a ha).imp_right fun ⟨s, hs, hjoined, heq⟩ => ?_⟩
      exact ⟨s, hs, List.mem_append_right _ hjoined, heq⟩

/-- **Soundness, at the depth of the proof.** If the siblings climb from a node to the root of the
tree over `leaves`, then the node is one of the padded tree, as many levels below the root as there
are siblings, or the strings hashed in the tree and on the climb break the hash. -/
theorem mem_level_of_climb {leaves strings : List β}
    (hjoin : ∀ a b c d, join a b = join c d → (a = c ∧ b = d) ∨ (a = d ∧ b = c))
    (hleaf : ∀ s ∈ leaves, ∀ a b, s ≠ join a b)
    (htree : treeStrings hash join pad leaves ⊆ strings) (hsafe : ¬ Breaks hash pad strings)
    {root : α} (hroot : collapse pad (fun a b => hash (join a b)) (leaves.map hash) = [root])
    {node : α} {sibs : List α} (hwalk : proofStrings hash join node sibs ⊆ strings)
    (hclimb : sibs.foldl (fun a b => hash (join a b)) node = root) :
    ∃ level, (paddedLevels pad (fun a b => hash (join a b))
        (leaves.map hash)).reverse[sibs.length]? = some level ∧ node ∈ level := by
  induction sibs generalizing node with
  | nil =>
    refine ⟨[root], ?_, ?_⟩
    · rw [List.length_nil, ← List.head?_eq_getElem?, List.head?_reverse, getLast?_paddedLevels,
        hroot]
    · rw [← hclimb]
      exact List.mem_singleton_self _
  | cons sib sibs ih =>
    have hself : join node sib ∈ strings := hwalk List.mem_cons_self
    have hnotPad := ne_pad_of_not_breaks hsafe hself
    obtain ⟨upper, hupper, hmem⟩ := ih (fun t ht => hwalk (List.mem_cons_of_mem _ ht)) hclimb
    have hlt := (List.getElem?_eq_some_iff.mp hupper).choose
    rw [List.length_reverse] at hlt
    rw [List.getElem?_reverse hlt] at hupper
    -- one level further down, if there is one
    generalize hk : (paddedLevels pad (fun a b => hash (join a b)) (leaves.map hash)).length - 1 -
      sibs.length = k at hupper
    cases k with
    | zero =>
      rcases mem_bottom hupper hmem with hpad | hbottom
      · exact absurd hpad hnotPad
      · obtain ⟨t, ht, heq⟩ := List.mem_map.mp hbottom
        have hsame : join node sib = t :=
          eq_of_not_breaks hsafe hself (htree (List.mem_append_left _ ht)) heq.symm
        exact absurd hsame.symm (hleaf t ht node sib)
    | succ k =>
      obtain ⟨lower, hlower, hchildren⟩ := exists_lower hupper
      refine ⟨lower, ?_, ?_⟩
      · rw [List.length_cons, List.getElem?_reverse (by omega), ← hlower]
        congr 1
        omega
      · rcases hchildren _ hmem with hpad | ⟨s, hs, hjoined, heq⟩
        · exact absurd hpad hnotPad
        · have hsame : join node sib = s :=
            eq_of_not_breaks hsafe hself (htree (List.mem_append_right _ hjoined)) heq
          obtain ⟨a, ha, b, hb, hab⟩ := mem_of_mem_mapPairs hs
          rcases hjoin _ _ _ _ (hsame.trans hab) with ⟨hnode, -⟩ | ⟨hnode, -⟩
          · rw [hnode]
            exact ha
          · rw [hnode]
            exact hb

end Soundness

end MerkleTree
