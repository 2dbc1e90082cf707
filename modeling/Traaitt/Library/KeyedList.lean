import Mathlib.Data.List.Perm.Subperm
import Mathlib.Data.List.Sort

/-! Vectors of records searched by a key, as C++ code keeps them: `std::find_if` on the key,
then an overwrite of the entry found or a `push_back`, and `erase` of the entry found. The keys
stay distinct under each of these and under every reordering or truncation, since those are
subpermutations. A sort with a comparator is a permutation ordered by it; cutting it leaves every
kept entry before every dropped one. A vector of distinct keys kept in key order, as a `std::map`
holds its entries, is the sort of its entries by key, whatever order they came in. -/

namespace KeyedList

variable {α β : Type*} [DecidableEq β] (key : α → β)

/-- `std::find_if` by key: the index of the first entry of key `k`. -/
def findKey (l : List α) (k : β) : Option ℕ :=
  l.findIdx? fun x => key x == k

variable {key}

theorem findKey_eq_none {l : List α} {k : β} :
    findKey key l k = none ↔ ∀ x ∈ l, key x ≠ k := by
  simp [findKey, List.findIdx?_eq_none_iff]

theorem findKey_eq_some {l : List α} {k : β} {i : ℕ} (h : findKey key l k = some i) :
    ∃ hi : i < l.length, key l[i] = k := by
  obtain ⟨hi, hkey, -⟩ := List.findIdx?_eq_some_iff_getElem.1 h
  exact ⟨hi, beq_iff_eq.1 hkey⟩

theorem findKey_isSome {l : List α} {k : β} :
    (findKey key l k).isSome ↔ ∃ x ∈ l, key x = k := by
  rw [← not_iff_not, Bool.not_eq_true, Option.isSome_eq_false_iff, Option.isNone_iff_eq_none,
    findKey_eq_none]
  simp

/-- `*std::find_if(...) = a`: overwriting the entry found keeps the keys. -/
theorem map_set_of_findKey {l : List α} {a : α} {i : ℕ}
    (h : findKey key l (key a) = some i) : (l.set i a).map key = l.map key := by
  obtain ⟨hi, hkey⟩ := findKey_eq_some h
  rw [List.map_set, ← hkey, ← List.getElem_map key (h := by simpa using hi),
    List.set_getElem_self]

theorem nodup_map_append_of_findKey {l : List α} {a : α} (h : findKey key l (key a) = none)
    (hl : (l.map key).Nodup) : ((l ++ [a]).map key).Nodup := by
  rw [List.map_append, List.nodup_append]
  refine ⟨hl, List.pairwise_singleton _ _, ?_⟩
  intro b hb c hc
  obtain ⟨x, hx, rfl⟩ := List.mem_map.1 hb
  rw [List.map_singleton, List.mem_singleton] at hc
  exact hc ▸ findKey_eq_none.1 h x hx

omit [DecidableEq β] in
/-- Every sub-multiset of a vector of distinct keys has distinct keys: a reordering, a
truncation, an erase. -/
theorem nodup_map_of_subperm {l₁ l₂ : List α} (h : l₁.Subperm l₂) (hl : (l₂.map key).Nodup) :
    (l₁.map key).Nodup := by
  obtain ⟨l, hperm, hsub⟩ := h
  exact (hperm.map key).nodup_iff.1 (hl.sublist (hsub.map key))

theorem key_ne_of_mem_eraseP {l : List α} {k : β} (hl : (l.map key).Nodup) :
    ∀ x ∈ l.eraseP (fun x => key x == k), key x ≠ k := by
  by_cases hfound : ∃ y ∈ l, key y = k
  · obtain ⟨y, hy, hyk⟩ := hfound
    obtain ⟨z, l₁, l₂, -, hz, rfl, herase⟩ := List.exists_of_eraseP (p := fun x => key x == k) hy
      (beq_iff_eq.2 hyk)
    rw [herase]
    -- the erased entry was the only one of its key
    intro x hx hxk
    rw [List.map_append, List.map_cons, List.nodup_append] at hl
    rcases List.mem_append.1 hx with hx | hx
    · exact hl.2.2 _ (List.mem_map_of_mem hx) _ List.mem_cons_self
        (hxk.trans (beq_iff_eq.1 hz).symm)
    · exact (List.nodup_cons.1 hl.2.1).1 ((beq_iff_eq.1 hz).trans hxk.symm ▸
        List.mem_map_of_mem hx)
  · simp only [not_exists, not_and] at hfound
    rw [List.eraseP_of_forall_not fun x hx hkey => hfound x hx (beq_iff_eq.1 hkey)]
    exact hfound

/-! ## Sorts -/

/-- A sort as `std::sort` with a comparator gives it: a permutation ordered by `r`. Which of the
orders `r` allows it picks is left open, as `std::sort` is not stable. -/
structure SortBy (r : α → α → Prop) where
  sort : List α → List α
  perm : ∀ l, (sort l).Perm l
  sorted : ∀ l, (sort l).Pairwise r

/-- `std::sort` by a comparator that is a total preorder, as `List.mergeSort` runs it. -/
def SortBy.mergeSort (le : α → α → Bool) (trans : ∀ a b c, le a b → le b c → le a c)
    (total : ∀ a b, (le a b || le b a) = true) : SortBy fun a b => le a b = true where
  sort l := l.mergeSort le
  perm l := List.mergeSort_perm l le
  sorted := List.pairwise_mergeSort trans total

variable {r : α → α → Prop}

/-- A sort ordered by `r` is ordered by every weaker relation. -/
def SortBy.imp {r' : α → α → Prop} (s : SortBy r) (h : ∀ a b, r a b → r' a b) : SortBy r' where
  sort := s.sort
  perm := s.perm
  sorted l := (s.sorted l).imp (h _ _)

theorem SortBy.take_drop (s : SortBy r) (l : List α) (n : ℕ) :
    ((s.sort l).take n ++ (s.sort l).drop n).Perm l ∧
      ∀ x ∈ (s.sort l).take n, ∀ y ∈ (s.sort l).drop n, r x y := by
  rw [List.take_append_drop]
  refine ⟨s.perm l, ?_⟩
  have hsorted := s.sorted l
  rw [← List.take_append_drop n (s.sort l), List.pairwise_append] at hsorted
  exact hsorted.2.2

theorem SortBy.take_subperm (s : SortBy r) (l : List α) (n : ℕ) : ((s.sort l).take n).Subperm l :=
  (List.take_sublist n _).subperm.trans (s.perm l).subperm

/-! ## Maps -/

omit [DecidableEq β] in
/-- Entries of distinct keys in increasing key order are the insertion sort of the entries by key:
a `std::map` is determined by its entries. -/
theorem eq_insertionSort_of_pairwise [LinearOrder β] [DecidableRel fun a b : α => key a ≤ key b]
    {l l' : List α} (hnodup : (l.map key).Nodup) (hperm : l'.Perm l)
    (hsorted : l'.Pairwise fun a b => key a < key b) :
    l' = l.insertionSort fun a b => key a ≤ key b := by
  have htotal : Std.Total fun a b : α => key a ≤ key b := ⟨fun a b => le_total _ _⟩
  have htrans : IsTrans α fun a b => key a ≤ key b := ⟨fun _ _ _ => le_trans⟩
  have hsort := List.perm_insertionSort (fun a b => key a ≤ key b) l
  refine (hperm.trans hsort.symm).eq_of_pairwise ?_ (hsorted.imp le_of_lt)
    (List.pairwise_insertionSort _ l)
  -- two entries of one key are the same entry, as the keys are distinct
  intro a b ha hb hab hba
  exact List.inj_on_of_nodup_map hnodup (hperm.subset ha) (hsort.subset hb) (le_antisymm hab hba)

end KeyedList
