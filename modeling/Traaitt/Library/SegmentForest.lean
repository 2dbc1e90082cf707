import Mathlib
import Traaitt.Library.ParentStore

/-! A tree of chains kept as segments in a list, each linked to its parent by position. A
segment holds the heights `start` to `start + count - 1`, and a child segment goes on from a
height above its parent's last; the leaves are listed apart. `WellFormed` says that the links
agree both ways, that every segment holds a height and starts above its parent's last, and that
the listed leaves are segments without children, each listed once. Growing a segment without
children, forking a new leaf off a segment with children, splitting a segment in two, the upper
part taking over its children or not, and reordering the leaves keep it. -/

namespace SegmentForest

open scoped List

/-- A segment: its parent's position, its children's positions, and its heights. -/
structure Segment where
  parent : Option ℕ
  children : List ℕ
  start : ℕ
  count : ℕ
  deriving DecidableEq, Repr

/-- The links agree both ways, every segment holds a height and starts above its parent's last,
and `leaves` lists segments without children, each once. -/
structure WellFormed (nodes : List Segment) (leaves : List ℕ) : Prop where
  parent_link : ∀ {j : ℕ} {s : Segment} {p : ℕ}, nodes[j]? = some s → s.parent = some p →
    ∃ ps, nodes[p]? = some ps ∧ j ∈ ps.children ∧ ps.start + ps.count ≤ s.start
  child_link : ∀ {p : ℕ} {ps : Segment} {j : ℕ}, nodes[p]? = some ps → j ∈ ps.children →
    ∃ s, nodes[j]? = some s ∧ s.parent = some p
  count_pos : ∀ {j : ℕ} {s : Segment}, nodes[j]? = some s → 0 < s.count
  leaf_childless : ∀ {j : ℕ}, j ∈ leaves → ∃ s, nodes[j]? = some s ∧ s.children = []
  leaves_nodup : leaves.Nodup
  leaves_ne_nil : leaves ≠ []

/-- One more height on segment `i`. -/
def extend (nodes : List Segment) (i : ℕ) : List Segment :=
  nodes.modify i fun s => { s with count := s.count + 1 }

/-- A new segment holding the one height `start`, under segment `p`: it goes at the end of the
list and joins `p`'s children. -/
def fork (nodes : List Segment) (p start : ℕ) : List Segment :=
  (nodes.modify p fun s => { s with children := s.children ++ [nodes.length] }) ++
    [⟨some p, [], start, 1⟩]

/-- Segment `i` cut at height `k`: the heights from `k` on go to a new segment at the end of the
list, which takes over `i`'s children and becomes `i`'s only child. -/
def splitAt (nodes : List Segment) (i k : ℕ) : List Segment :=
  match nodes[i]? with
  | none => nodes
  | some s =>
    ((nodes.set i { s with children := [nodes.length], count := min (k - s.start) s.count }).mapIdx
        fun j t => if j ∈ s.children then { t with parent := some nodes.length } else t) ++
      [⟨some i, s.children, k, s.count - (k - s.start)⟩]

/-- Segment `i` cut at height `k`, keeping its children: the heights from `k` on go to a new
segment at the end of the list, without children, which joins `i`'s children. -/
def splitKeep (nodes : List Segment) (i k : ℕ) : List Segment :=
  match nodes[i]? with
  | none => nodes
  | some s =>
    nodes.set i
        { s with
          children := s.children ++ [nodes.length]
          count := min (k - s.start) s.count } ++
      [⟨some i, [], k, s.count - (k - s.start)⟩]

/-- Leaf `i` replaced by the upper part of its split, stored at `n`. -/
def relabelLeaf (leaves : List ℕ) (i n : ℕ) : List ℕ :=
  leaves.map fun l => if l = i then n else l

/-- The leaves after `splitAt`: a cut leaf is replaced by its upper part. -/
def splitLeaves (nodes : List Segment) (leaves : List ℕ) (i : ℕ) : List ℕ :=
  match nodes[i]? with
  | none => leaves
  | some s => if s.children = [] then relabelLeaf leaves i nodes.length else leaves

/-- Leaf `c` moved to the front of the leaves, the first leaf taking its place. -/
def promote (leaves : List ℕ) (c : ℕ) : List ℕ :=
  (leaves.set 0 c).set (leaves.idxOf c) (leaves.headD 0)

/-! ## Lookups -/

theorem getElem?_extend (nodes : List Segment) (i j : ℕ) :
    (extend nodes i)[j]? =
      nodes[j]?.map fun s => if i = j then { s with count := s.count + 1 } else s := by
  rw [extend, List.getElem?_modify]
  rfl

theorem getElem?_fork (nodes : List Segment) (p start j : ℕ) :
    (fork nodes p start)[j]? =
      if j < nodes.length then
        nodes[j]?.map fun s =>
          if p = j then { s with children := s.children ++ [nodes.length] } else s
      else if j = nodes.length then some ⟨some p, [], start, 1⟩ else none := by
  rw [fork, List.getElem?_append, List.length_modify, List.getElem?_modify]
  by_cases hlt : j < nodes.length
  · rw [if_pos hlt, if_pos hlt]
    rfl
  · rw [if_neg hlt, if_neg hlt]
    by_cases heq : j = nodes.length
    · subst heq
      simp
    · rw [if_neg heq]
      exact List.getElem?_eq_none (by simp only [List.length_singleton]; omega)

theorem getElem?_splitAt {nodes : List Segment} {i : ℕ} {s : Segment} (hs : nodes[i]? = some s)
    (hself : i ∉ s.children) (k j : ℕ) :
    (splitAt nodes i k)[j]? =
      if j = nodes.length then some ⟨some i, s.children, k, s.count - (k - s.start)⟩
      else if j = i then
        some { s with children := [nodes.length], count := min (k - s.start) s.count }
      else nodes[j]?.map fun t => if j ∈ s.children then { t with parent := some nodes.length }
        else t := by
  have hi : i < nodes.length := (List.getElem?_eq_some_iff.1 hs).1
  simp only [splitAt, hs]
  rw [List.getElem?_append, List.length_mapIdx, List.length_set, List.getElem?_mapIdx,
    List.getElem?_set]
  by_cases hj : j = nodes.length
  · subst hj
    simp
  · by_cases hlt : j < nodes.length
    · rw [if_pos hlt, if_neg hj]
      by_cases hji : j = i
      · subst hji
        simp [hi, hself]
      · rw [if_neg (Ne.symm hji), if_neg hji]
    · rw [List.getElem?_eq_none (by omega)]
      simp [hlt, hj, show j ≠ i by omega, show j - nodes.length ≠ 0 by omega]

theorem getElem?_splitKeep {nodes : List Segment} {i : ℕ} {s : Segment} (hs : nodes[i]? = some s)
    (k j : ℕ) :
    (splitKeep nodes i k)[j]? =
      if j = nodes.length then some ⟨some i, [], k, s.count - (k - s.start)⟩
      else if j = i then
        some
          { s with
            children := s.children ++ [nodes.length]
            count := min (k - s.start) s.count }
      else nodes[j]? := by
  have hi : i < nodes.length := (List.getElem?_eq_some_iff.1 hs).1
  simp only [splitKeep, hs]
  rw [List.getElem?_append, List.length_set, List.getElem?_set]
  by_cases hj : j = nodes.length
  · subst hj
    simp
  · by_cases hlt : j < nodes.length
    · rw [if_pos hlt, if_neg hj]
      by_cases hji : j = i
      · subst hji
        simp [hi]
      · rw [if_neg (Ne.symm hji), if_neg hji]
    · rw [List.getElem?_eq_none (by omega)]
      simp [hlt, hj, show j ≠ i by omega, show j - nodes.length ≠ 0 by omega]

theorem mem_relabelLeaf {leaves : List ℕ} {i n l : ℕ} :
    l ∈ relabelLeaf leaves i n ↔ (i ∈ leaves ∧ l = n) ∨ (l ≠ i ∧ l ∈ leaves) := by
  rw [relabelLeaf, List.mem_map]
  constructor
  · rintro ⟨l₀, hl₀, rfl⟩
    split_ifs with hli
    · exact .inl ⟨hli ▸ hl₀, rfl⟩
    · exact .inr ⟨hli, hl₀⟩
  · rintro (⟨hi, rfl⟩ | ⟨hli, hl⟩)
    · exact ⟨i, hi, if_pos rfl⟩
    · exact ⟨l, hl, if_neg hli⟩

theorem nodup_relabelLeaf {leaves : List ℕ} {i n : ℕ} (h : leaves.Nodup) (hn : n ∉ leaves) :
    (relabelLeaf leaves i n).Nodup := by
  refine h.map_on fun a ha b hb hab => ?_
  have ha' : a ≠ n := fun han => hn (han ▸ ha)
  have hb' : b ≠ n := fun hbn => hn (hbn ▸ hb)
  by_cases hai : a = i <;> by_cases hbi : b = i
  · rw [hai, hbi]
  · rw [if_pos hai, if_neg hbi] at hab
    exact absurd hab.symm hb'
  · rw [if_neg hai, if_pos hbi] at hab
    exact absurd hab ha'
  · rwa [if_neg hai, if_neg hbi] at hab

theorem relabelLeaf_ne_nil {leaves : List ℕ} {i n : ℕ} (h : leaves ≠ []) :
    relabelLeaf leaves i n ≠ [] := by
  simpa [relabelLeaf] using h

theorem cons_set_perm {rest : List ℕ} {c m k : ℕ} (hk : k < rest.length) (hget : rest[k] = c) :
    (c :: rest.set k m).Perm (m :: rest) := by
  have hrest : rest = rest.take k ++ c :: rest.drop (k + 1) := by
    rw [← hget, List.getElem_cons_drop, List.take_append_drop]
  rw [List.set_eq_take_append_cons_drop, if_pos hk]
  conv_rhs => rw [hrest]
  calc c :: (rest.take k ++ m :: rest.drop (k + 1))
      _ ~ c :: m :: (rest.take k ++ rest.drop (k + 1)) := List.perm_middle.cons c
      _ ~ m :: c :: (rest.take k ++ rest.drop (k + 1)) := List.Perm.swap _ _ _
      _ ~ m :: (rest.take k ++ c :: rest.drop (k + 1)) := (List.perm_middle.cons m).symm

/-- Promoting a leaf only reorders the leaves. -/
theorem promote_perm {leaves : List ℕ} {c : ℕ} (hc : c ∈ leaves) :
    (promote leaves c).Perm leaves := by
  obtain _ | ⟨m, rest⟩ := leaves
  · simp at hc
  by_cases hcm : c = m
  · subst hcm
    simp [promote]
  · -- `c` sits at some place of the rest, and trades it for the front
    have hrest : c ∈ rest := (List.mem_cons.1 hc).resolve_left hcm
    have hk : rest.idxOf c < rest.length := List.idxOf_lt_length_of_mem hrest
    rw [promote, List.idxOf_cons_ne _ (Ne.symm hcm), List.set_cons_zero, List.headD_cons,
      List.set_cons_succ]
    exact cons_set_perm hk (List.getElem_idxOf hk)

theorem extend_append_length (nodes : List Segment) (x : Segment) :
    extend (nodes ++ [x]) nodes.length = nodes ++ [{ x with count := x.count + 1 }] := by
  rw [extend, List.modify_eq_set_getElem?, List.getElem?_concat_length, Option.map_eq_map,
    Option.map_some, Option.getD_some, List.set_append_right _ _ le_rfl, Nat.sub_self,
    List.set_cons_zero]

/-- Growing a segment leaves every ancestry as it was. -/
theorem path_extend (nodes : List Segment) (i j : ℕ) :
    ParentStore.path Segment.parent Segment.start (extend nodes i) j =
      ParentStore.path Segment.parent Segment.start nodes j := by
  refine ParentStore.path_eq_of_map_eq (List.ext_getElem? fun n => ?_) j
  rw [List.getElem?_map, List.getElem?_map, getElem?_extend, Option.map_map]
  congr 1
  funext t
  simp only [Function.comp_apply]
  split_ifs <;> rfl

/-! ## Facts of a well-formed forest -/

section WellFormed

variable {nodes : List Segment} {leaves : List ℕ}

theorem WellFormed.ranked (h : WellFormed nodes leaves) :
    ParentStore.Ranked Segment.parent Segment.start nodes := by
  intro j s p hs hp
  obtain ⟨ps, hps, -, hstart⟩ := h.parent_link hs hp
  exact ⟨ps, hps, by have := h.count_pos hps; omega⟩

theorem WellFormed.not_mem_children_self (h : WellFormed nodes leaves) {i : ℕ} {s : Segment}
    (hs : nodes[i]? = some s) : i ∉ s.children := by
  intro hmem
  obtain ⟨t, ht, hparent⟩ := h.child_link hs hmem
  obtain rfl : s = t := Option.some.inj (hs.symm.trans ht)
  obtain ⟨ps, hps, -, hstart⟩ := h.parent_link hs hparent
  obtain rfl : s = ps := Option.some.inj (hs.symm.trans hps)
  have := h.count_pos hs
  omega

theorem WellFormed.length_not_mem_leaves (h : WellFormed nodes leaves) : nodes.length ∉ leaves := by
  intro hmem
  obtain ⟨s, hs, -⟩ := h.leaf_childless hmem
  exact absurd (List.getElem?_eq_some_iff.1 hs).1 (lt_irrefl _)

theorem WellFormed.perm (h : WellFormed nodes leaves) {leaves' : List ℕ}
    (hperm : leaves'.Perm leaves) : WellFormed nodes leaves' where
  parent_link := h.parent_link
  child_link := h.child_link
  count_pos := h.count_pos
  leaf_childless hj := h.leaf_childless (hperm.mem_iff.1 hj)
  leaves_nodup := hperm.nodup_iff.2 h.leaves_nodup
  leaves_ne_nil := by
    intro hnil
    subst hnil
    exact h.leaves_ne_nil (List.nil_perm.1 hperm)

/-- A segment without children on the ancestry of `j` is `j` itself: every other segment on it
is the parent of the one before. -/
theorem WellFormed.eq_of_mem_path (h : WellFormed nodes leaves) {i j : ℕ} {s : Segment}
    (hs : nodes[i]? = some s) (hnil : s.children = [])
    (hi : i ∈ ParentStore.path Segment.parent Segment.start nodes j) : i = j := by
  cases hj : nodes[j]? with
  | none =>
    rw [ParentStore.path_of_getElem?_none hj] at hi
    cases hi
  | some a =>
    revert hi
    refine h.ranked.induction
      (P := fun j => i ∈ ParentStore.path Segment.parent Segment.start nodes j → i = j)
      (fun j a ha ih hi => ?_) j a hj
    cases hp : a.parent with
    | none =>
      rw [ParentStore.path_of_parentOf_none ha hp, List.mem_singleton] at hi
      exact hi
    | some p =>
      rw [ParentStore.path_of_parentOf_some h.ranked ha hp, List.mem_cons] at hi
      rcases hi with hi | hi
      · exact hi
      · -- then `i` is the parent `p`, which has `j` among its children
        obtain rfl := ih p hp hi
        obtain ⟨ps, hps, hmem, -⟩ := h.parent_link ha hp
        obtain rfl : s = ps := Option.some.inj (hs.symm.trans hps)
        simp [hnil] at hmem

/-! ## What the operations keep -/

/-- A lone root segment holding a height is a well-formed forest, and its only leaf. -/
theorem wellFormed_root {start count : ℕ} (hcount : 0 < count) :
    WellFormed [⟨none, [], start, count⟩] [0] := by
  have hroot : ∀ {j : ℕ} {s : Segment}, [(⟨none, [], start, count⟩ : Segment)][j]? = some s →
      j = 0 ∧ s = ⟨none, [], start, count⟩ := by
    intro j s hs
    rw [List.getElem?_singleton] at hs
    split_ifs at hs with hj
    exact ⟨hj, (Option.some.inj hs).symm⟩
  refine ⟨?_, ?_, ?_, ?_, List.nodup_singleton 0, List.cons_ne_nil 0 []⟩
  · intro j s p hs hp
    obtain ⟨-, rfl⟩ := hroot hs
    cases hp
  · intro p ps j hps hj
    obtain ⟨-, rfl⟩ := hroot hps
    cases hj
  · intro j s hs
    obtain ⟨-, rfl⟩ := hroot hs
    exact hcount
  · intro j hj
    rw [List.mem_singleton.1 hj]
    exact ⟨_, rfl, rfl⟩

theorem WellFormed.extend (h : WellFormed nodes leaves) {i : ℕ} {s : Segment}
    (hs : nodes[i]? = some s) (hleaf : s.children = []) : WellFormed (extend nodes i) leaves := by
  have look : ∀ {j : ℕ} {t₀ : Segment}, nodes[j]? = some t₀ → ∃ t,
      (SegmentForest.extend nodes i)[j]? = some t ∧ t.parent = t₀.parent ∧
        t.children = t₀.children ∧ t.start = t₀.start ∧ t₀.count ≤ t.count ∧
        (j ≠ i → t = t₀) := by
    intro j t₀ ht₀
    rw [getElem?_extend, ht₀, Option.map_some]
    refine ⟨_, rfl, ?_⟩
    split_ifs with hij
    · exact ⟨rfl, rfl, rfl, Nat.le_succ _, fun hne => absurd hij.symm hne⟩
    · exact ⟨rfl, rfl, rfl, le_rfl, fun _ => rfl⟩
  have lookup : ∀ {j : ℕ} {t : Segment}, (SegmentForest.extend nodes i)[j]? = some t →
      ∃ t₀, nodes[j]? = some t₀ ∧ t.parent = t₀.parent ∧ t.children = t₀.children ∧
        t.start = t₀.start ∧ t₀.count ≤ t.count ∧ (j ≠ i → t = t₀) := by
    intro j t ht
    obtain ⟨t₀, ht₀, -⟩ := Option.map_eq_some_iff.1 ((getElem?_extend nodes i j).symm.trans ht)
    obtain ⟨t', ht', hrest⟩ := look ht₀
    obtain rfl : t = t' := Option.some.inj (ht.symm.trans ht')
    exact ⟨t₀, ht₀, hrest⟩
  refine ⟨?_, ?_, ?_, ?_, h.leaves_nodup, h.leaves_ne_nil⟩
  · intro j t p ht hp
    obtain ⟨t₀, ht₀, hparent, -, hstart, -⟩ := lookup ht
    obtain ⟨ps, hps, hmem, hend⟩ := h.parent_link ht₀ (hparent ▸ hp)
    -- the parent has a child, so it is not the segment that grew
    have hne : p ≠ i := by
      rintro rfl
      obtain rfl : s = ps := Option.some.inj (hs.symm.trans hps)
      simp [hleaf] at hmem
    obtain ⟨ps', hps', -, -, -, -, hsame⟩ := look hps
    refine ⟨ps', hps', hsame hne ▸ hmem, ?_⟩
    rw [hsame hne, hstart]
    exact hend
  · intro p ps j hps hmem
    obtain ⟨ps₀, hps₀, -, hchildren, -⟩ := lookup hps
    obtain ⟨t₀, ht₀, hparent⟩ := h.child_link hps₀ (hchildren ▸ hmem)
    obtain ⟨t, ht, htp, -⟩ := look ht₀
    exact ⟨t, ht, htp.trans hparent⟩
  · intro j t ht
    obtain ⟨t₀, ht₀, -, -, -, hle, -⟩ := lookup ht
    exact lt_of_lt_of_le (h.count_pos ht₀) hle
  · intro j hj
    obtain ⟨t₀, ht₀, hnil⟩ := h.leaf_childless hj
    obtain ⟨t, ht, -, htc, -⟩ := look ht₀
    exact ⟨t, ht, htc.trans hnil⟩

theorem WellFormed.fork (h : WellFormed nodes leaves) {p start : ℕ} {ps : Segment}
    (hps : nodes[p]? = some ps) (hchildren : ps.children ≠ [])
    (hstart : ps.start + ps.count = start) :
    WellFormed (fork nodes p start) (leaves ++ [nodes.length]) := by
  -- a segment of the new list is the new leaf, or an old one with the leaf added to `p`'s
  -- children
  have look : ∀ {j : ℕ} {t : Segment}, (SegmentForest.fork nodes p start)[j]? = some t →
      (j = nodes.length ∧ t = ⟨some p, [], start, 1⟩) ∨
      ∃ t₀, nodes[j]? = some t₀ ∧ t.parent = t₀.parent ∧ t.start = t₀.start ∧
        t.count = t₀.count ∧
        t.children = if p = j then t₀.children ++ [nodes.length] else t₀.children := by
    intro j t ht
    rw [getElem?_fork] at ht
    by_cases hlt : j < nodes.length
    · rw [if_pos hlt] at ht
      obtain ⟨t₀, ht₀, rfl⟩ := Option.map_eq_some_iff.1 ht
      refine .inr ⟨t₀, ht₀, ?_⟩
      split_ifs <;> exact ⟨rfl, rfl, rfl, rfl⟩
    · rw [if_neg hlt] at ht
      by_cases heq : j = nodes.length
      · rw [if_pos heq] at ht
        exact .inl ⟨heq, (Option.some.inj ht).symm⟩
      · rw [if_neg heq] at ht
        cases ht
  have keep : ∀ {j : ℕ} {t₀ : Segment}, nodes[j]? = some t₀ → ∃ t,
      (SegmentForest.fork nodes p start)[j]? = some t ∧ t.parent = t₀.parent ∧
        t.start = t₀.start ∧ t.count = t₀.count ∧
        t.children = if p = j then t₀.children ++ [nodes.length] else t₀.children := by
    intro j t₀ ht₀
    rw [getElem?_fork, if_pos (List.getElem?_eq_some_iff.1 ht₀).1, ht₀, Option.map_some]
    refine ⟨_, rfl, ?_⟩
    split_ifs <;> exact ⟨rfl, rfl, rfl, rfl⟩
  have hnew : (SegmentForest.fork nodes p start)[nodes.length]? = some ⟨some p, [], start, 1⟩ := by
    rw [getElem?_fork, if_neg (lt_irrefl _), if_pos rfl]
  have hsub : ∀ {j : ℕ} {t₀ : Segment} (c : List ℕ),
      t₀.children ⊆ if p = j then t₀.children ++ c else t₀.children := by
    intro j t₀ c
    split_ifs
    · exact List.subset_append_left _ _
    · exact List.Subset.refl _
  obtain ⟨ps', hps', -, hpstart, hpcount, hpchildren⟩ := keep hps
  rw [if_pos rfl] at hpchildren
  refine ⟨?_, ?_, ?_, ?_, ?_, by simp⟩
  · intro j t q ht hq
    rcases look ht with ⟨rfl, rfl⟩ | ⟨t₀, ht₀, hparent, htstart, -, -⟩
    · -- the new leaf starts where `p` ends
      obtain rfl : p = q := Option.some.inj hq
      refine ⟨ps', hps', by simp [hpchildren], ?_⟩
      rw [hpstart, hpcount, hstart]
    · obtain ⟨qs, hqs, hmem, hend⟩ := h.parent_link ht₀ (hparent ▸ hq)
      obtain ⟨qs', hqs', -, hqstart, hqcount, hqchildren⟩ := keep hqs
      refine ⟨qs', hqs', hqchildren ▸ hsub _ hmem, ?_⟩
      rw [hqstart, hqcount, htstart]
      exact hend
  · intro q qs j hqs hmem
    rcases look hqs with ⟨rfl, rfl⟩ | ⟨qs₀, hqs₀, -, -, -, hqchildren⟩
    · simp at hmem
    · rw [hqchildren] at hmem
      split_ifs at hmem with hpq
      · rcases List.mem_append.1 hmem with hmem | hmem
        · obtain ⟨t₀, ht₀, hparent⟩ := h.child_link hqs₀ hmem
          obtain ⟨t, ht, htp, -⟩ := keep ht₀
          exact ⟨t, ht, htp.trans hparent⟩
        · rw [List.mem_singleton] at hmem
          subst hmem hpq
          exact ⟨_, hnew, rfl⟩
      · obtain ⟨t₀, ht₀, hparent⟩ := h.child_link hqs₀ hmem
        obtain ⟨t, ht, htp, -⟩ := keep ht₀
        exact ⟨t, ht, htp.trans hparent⟩
  · intro j t ht
    rcases look ht with ⟨-, rfl⟩ | ⟨t₀, ht₀, -, -, htcount, -⟩
    · exact Nat.one_pos
    · exact htcount ▸ h.count_pos ht₀
  · intro j hj
    rcases List.mem_append.1 hj with hj | hj
    · -- `p` has children, so it is no listed leaf and keeps them
      obtain ⟨t₀, ht₀, hnil⟩ := h.leaf_childless hj
      have hpj : p ≠ j := by
        rintro rfl
        obtain rfl : ps = t₀ := Option.some.inj (hps.symm.trans ht₀)
        exact hchildren hnil
      obtain ⟨t, ht, -, -, -, htc⟩ := keep ht₀
      exact ⟨t, ht, by rw [htc, if_neg hpj, hnil]⟩
    · rw [List.mem_singleton.1 hj]
      exact ⟨_, hnew, rfl⟩
  · rw [← List.concat_eq_append]
    exact h.leaves_nodup.concat h.length_not_mem_leaves

/-- Splitting a segment at a height strictly inside it, the upper part taking over its
children. -/
theorem WellFormed.splitAt (h : WellFormed nodes leaves) {i k : ℕ} {s : Segment}
    (hs : nodes[i]? = some s) (hk : s.start < k) (hk' : k < s.start + s.count) :
    WellFormed (splitAt nodes i k) (splitLeaves nodes leaves i) := by
  have hself := h.not_mem_children_self hs
  have hi : i < nodes.length := (List.getElem?_eq_some_iff.1 hs).1
  -- a segment of the new list is the upper part, the lower part, or an old one, relinked to
  -- the upper part when it was a child of `i`
  have look : ∀ {j : ℕ} {t : Segment}, (SegmentForest.splitAt nodes i k)[j]? = some t →
      (j = nodes.length ∧ t = ⟨some i, s.children, k, s.count - (k - s.start)⟩) ∨
      (j = i ∧ t = { s with children := [nodes.length], count := min (k - s.start) s.count }) ∨
      (j ≠ i ∧ ∃ t₀, nodes[j]? = some t₀ ∧ t.children = t₀.children ∧ t.start = t₀.start ∧
        t.count = t₀.count ∧ t.parent = if j ∈ s.children then some nodes.length else t₀.parent) := by
    intro j t ht
    rw [getElem?_splitAt hs hself] at ht
    by_cases hj : j = nodes.length
    · rw [if_pos hj] at ht
      exact .inl ⟨hj, (Option.some.inj ht).symm⟩
    · rw [if_neg hj] at ht
      by_cases hji : j = i
      · rw [if_pos hji] at ht
        exact .inr (.inl ⟨hji, (Option.some.inj ht).symm⟩)
      · rw [if_neg hji] at ht
        obtain ⟨t₀, ht₀, rfl⟩ := Option.map_eq_some_iff.1 ht
        refine .inr (.inr ⟨hji, t₀, ht₀, ?_⟩)
        split_ifs <;> exact ⟨rfl, rfl, rfl, rfl⟩
  have keep : ∀ {j : ℕ} {t₀ : Segment}, nodes[j]? = some t₀ → j ≠ i → ∃ t,
      (SegmentForest.splitAt nodes i k)[j]? = some t ∧ t.children = t₀.children ∧
        t.start = t₀.start ∧ t.count = t₀.count ∧
        t.parent = if j ∈ s.children then some nodes.length else t₀.parent := by
    intro j t₀ ht₀ hji
    have hj : j ≠ nodes.length := (List.getElem?_eq_some_iff.1 ht₀).1.ne
    rw [getElem?_splitAt hs hself, if_neg hj, if_neg hji, ht₀, Option.map_some]
    refine ⟨_, rfl, ?_⟩
    split_ifs <;> exact ⟨rfl, rfl, rfl, rfl⟩
  have hupper : (SegmentForest.splitAt nodes i k)[nodes.length]? =
      some ⟨some i, s.children, k, s.count - (k - s.start)⟩ := by
    rw [getElem?_splitAt hs hself, if_pos rfl]
  have hlower : (SegmentForest.splitAt nodes i k)[i]? =
      some { s with children := [nodes.length], count := min (k - s.start) s.count } := by
    rw [getElem?_splitAt hs hself, if_neg hi.ne, if_pos rfl]
  -- a child of `i` has `i` as its parent, and starts above `i`'s top
  have hchild : ∀ {j : ℕ} {t₀ : Segment}, nodes[j]? = some t₀ → j ∈ s.children →
      t₀.parent = some i ∧ s.start + s.count ≤ t₀.start := by
    intro j t₀ ht₀ hj
    obtain ⟨t₁, ht₁, hparent⟩ := h.child_link hs hj
    obtain rfl : t₀ = t₁ := Option.some.inj (ht₀.symm.trans ht₁)
    obtain ⟨ps, hps, -, hend⟩ := h.parent_link ht₀ hparent
    obtain rfl : s = ps := Option.some.inj (hs.symm.trans hps)
    exact ⟨hparent, hend⟩
  refine ⟨?_, ?_, ?_, ?_, ?_, ?_⟩
  · intro j t q ht hq
    rcases look ht with ⟨rfl, rfl⟩ | ⟨hji, rfl⟩ | ⟨hji, t₀, ht₀, -, htstart, -, htparent⟩
    · -- the upper part starts where the lower part ends
      obtain rfl : i = q := Option.some.inj hq
      exact ⟨_, hlower, List.mem_singleton_self _, by simp only; omega⟩
    · subst j
      obtain ⟨qs, hqs, hmem, hend⟩ := h.parent_link hs hq
      have hqi : q ≠ i := by
        rintro rfl
        obtain rfl : s = qs := Option.some.inj (hs.symm.trans hqs)
        exact hself hmem
      obtain ⟨qs', hqs', hqc, hqstart, hqcount, -⟩ := keep hqs hqi
      refine ⟨qs', hqs', hqc ▸ hmem, ?_⟩
      rw [hqstart, hqcount]
      exact hend
    · split_ifs at htparent with hj
      · -- a child of `i` now hangs from the upper part, which ends where `i` ended
        obtain rfl : nodes.length = q := Option.some.inj (htparent.symm.trans hq)
        obtain ⟨-, hend⟩ := hchild ht₀ hj
        exact ⟨_, hupper, hj, by simp only; omega⟩
      · obtain ⟨qs, hqs, hmem, hend⟩ := h.parent_link ht₀ (htparent ▸ hq)
        have hqi : q ≠ i := by
          rintro rfl
          obtain rfl : s = qs := Option.some.inj (hs.symm.trans hqs)
          exact hj hmem
        obtain ⟨qs', hqs', hqc, hqstart, hqcount, -⟩ := keep hqs hqi
        refine ⟨qs', hqs', hqc ▸ hmem, ?_⟩
        rw [hqstart, hqcount, htstart]
        exact hend
  · intro q qs j hqs hmem
    rcases look hqs with ⟨rfl, rfl⟩ | ⟨hqi, rfl⟩ | ⟨hqi, qs₀, hqs₀, hqc, -⟩
    · -- the children of `i` are the upper part's
      obtain ⟨t₀, ht₀, -⟩ := h.child_link hs hmem
      have hji : j ≠ i := fun hji => hself (hji ▸ hmem)
      obtain ⟨t, ht, -, -, -, htparent⟩ := keep ht₀ hji
      exact ⟨t, ht, by rw [htparent, if_pos hmem]⟩
    · rw [List.mem_singleton] at hmem
      subst hmem hqi
      exact ⟨_, hupper, rfl⟩
    · rw [hqc] at hmem
      obtain ⟨t₀, ht₀, hparent⟩ := h.child_link hqs₀ hmem
      -- a child of another segment is no child of `i`
      have hjs : j ∉ s.children := fun hjs => hqi (Option.some.inj ((hchild ht₀ hjs).1.symm.trans
        hparent)).symm
      by_cases hji : j = i
      · subst hji
        obtain rfl : s = t₀ := Option.some.inj (hs.symm.trans ht₀)
        exact ⟨_, hlower, hparent⟩
      · obtain ⟨t, ht, -, -, -, htparent⟩ := keep ht₀ hji
        exact ⟨t, ht, by rw [htparent, if_neg hjs, hparent]⟩
  · intro j t ht
    have hpos := h.count_pos hs
    rcases look ht with ⟨-, rfl⟩ | ⟨-, rfl⟩ | ⟨-, t₀, ht₀, -, -, htcount, -⟩
    · simp only
      omega
    · simp only
      omega
    · exact htcount ▸ h.count_pos ht₀
  · intro j hj
    simp only [splitLeaves, hs] at hj
    split_ifs at hj with hnil
    · rcases mem_relabelLeaf.1 hj with ⟨-, rfl⟩ | ⟨hji, hj⟩
      · exact ⟨_, hupper, hnil⟩
      · obtain ⟨t₀, ht₀, htnil⟩ := h.leaf_childless hj
        obtain ⟨t, ht, htc, -⟩ := keep ht₀ hji
        exact ⟨t, ht, htc.trans htnil⟩
    · -- `i` has children, so it is no listed leaf
      obtain ⟨t₀, ht₀, htnil⟩ := h.leaf_childless hj
      have hji : j ≠ i := by
        rintro rfl
        exact hnil (Option.some.inj (hs.symm.trans ht₀) ▸ htnil)
      obtain ⟨t, ht, htc, -⟩ := keep ht₀ hji
      exact ⟨t, ht, htc.trans htnil⟩
  · simp only [splitLeaves, hs]
    split_ifs
    · exact nodup_relabelLeaf h.leaves_nodup h.length_not_mem_leaves
    · exact h.leaves_nodup
  · simp only [splitLeaves, hs]
    split_ifs
    · exact relabelLeaf_ne_nil h.leaves_ne_nil
    · exact h.leaves_ne_nil

/-- Splitting a segment at a height strictly inside it, the segment keeping its children and
the upper part joining them. -/
theorem WellFormed.splitKeep (h : WellFormed nodes leaves) {i k : ℕ} {s : Segment}
    (hs : nodes[i]? = some s) (hk : s.start < k) (hk' : k < s.start + s.count) :
    WellFormed (splitKeep nodes i k) (relabelLeaf leaves i nodes.length) := by
  have hself := h.not_mem_children_self hs
  have hi : i < nodes.length := (List.getElem?_eq_some_iff.1 hs).1
  have hupper : (SegmentForest.splitKeep nodes i k)[nodes.length]? =
      some ⟨some i, [], k, s.count - (k - s.start)⟩ := by
    rw [getElem?_splitKeep hs, if_pos rfl]
  have hlower : (SegmentForest.splitKeep nodes i k)[i]? =
      some { s with
        children := s.children ++ [nodes.length]
        count := min (k - s.start) s.count } := by
    rw [getElem?_splitKeep hs, if_neg hi.ne, if_pos rfl]
  -- every other segment stays as it was
  have hother : ∀ {j : ℕ} {t : Segment}, nodes[j]? = some t → j ≠ i →
      (SegmentForest.splitKeep nodes i k)[j]? = some t := by
    intro j t ht hji
    rw [getElem?_splitKeep hs, if_neg (List.getElem?_eq_some_iff.1 ht).1.ne, if_neg hji, ht]
  -- a segment of the new list is the upper part, the lower part, or an old one
  have look : ∀ {j : ℕ} {t : Segment}, (SegmentForest.splitKeep nodes i k)[j]? = some t →
      (j = nodes.length ∧ t = ⟨some i, [], k, s.count - (k - s.start)⟩) ∨
      (j = i ∧ t = { s with
        children := s.children ++ [nodes.length]
        count := min (k - s.start) s.count }) ∨
      (j ≠ i ∧ nodes[j]? = some t) := by
    intro j t ht
    rw [getElem?_splitKeep hs] at ht
    split_ifs at ht with hj hji
    · exact .inl ⟨hj, (Option.some.inj ht).symm⟩
    · exact .inr (.inl ⟨hji, (Option.some.inj ht).symm⟩)
    · exact .inr (.inr ⟨hji, ht⟩)
  refine ⟨?_, ?_, ?_, ?_, nodup_relabelLeaf h.leaves_nodup h.length_not_mem_leaves,
    relabelLeaf_ne_nil h.leaves_ne_nil⟩
  · intro j t q ht hq
    rcases look ht with ⟨rfl, rfl⟩ | ⟨rfl, rfl⟩ | ⟨hji, ht₀⟩
    · -- the upper part starts where the lower part ends
      obtain rfl : i = q := Option.some.inj hq
      exact ⟨_, hlower, List.mem_append_right _ (List.mem_singleton_self _), by simp only; omega⟩
    · obtain ⟨qs, hqs, hmem, hend⟩ := h.parent_link hs hq
      have hqi : q ≠ j := by
        rintro rfl
        obtain rfl : s = qs := Option.some.inj (hs.symm.trans hqs)
        exact hself hmem
      exact ⟨qs, hother hqs hqi, hmem, hend⟩
    · obtain ⟨qs, hqs, hmem, hend⟩ := h.parent_link ht₀ hq
      by_cases hqi : q = i
      · -- a child of `i` stays one, above the lower part's top
        subst hqi
        obtain rfl : s = qs := Option.some.inj (hs.symm.trans hqs)
        exact ⟨_, hlower, List.mem_append_left _ hmem, by simp only; omega⟩
      · exact ⟨qs, hother hqs hqi, hmem, hend⟩
  · intro q qs j hqs hmem
    rcases look hqs with ⟨rfl, rfl⟩ | ⟨rfl, rfl⟩ | ⟨hqi, hqs₀⟩
    · cases hmem
    · rcases List.mem_append.1 hmem with hmem | hmem
      · obtain ⟨t, ht, hparent⟩ := h.child_link hs hmem
        exact ⟨t, hother ht fun hji => hself (hji ▸ hmem), hparent⟩
      · rw [List.mem_singleton.1 hmem]
        exact ⟨_, hupper, rfl⟩
    · obtain ⟨t, ht, hparent⟩ := h.child_link hqs₀ hmem
      by_cases hji : j = i
      · subst hji
        obtain rfl : s = t := Option.some.inj (hs.symm.trans ht)
        exact ⟨_, hlower, hparent⟩
      · exact ⟨t, hother ht hji, hparent⟩
  · intro j t ht
    have hpos := h.count_pos hs
    rcases look ht with ⟨-, rfl⟩ | ⟨-, rfl⟩ | ⟨-, ht₀⟩
    · simp only
      omega
    · simp only
      omega
    · exact h.count_pos ht₀
  · intro j hj
    rcases mem_relabelLeaf.1 hj with ⟨-, rfl⟩ | ⟨hji, hj⟩
    · exact ⟨_, hupper, rfl⟩
    · obtain ⟨t, ht, hnil⟩ := h.leaf_childless hj
      exact ⟨t, hother ht hji, hnil⟩

end WellFormed

end SegmentForest
