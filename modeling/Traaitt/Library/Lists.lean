import Mathlib

/-! Lists used as containers: unions of per-element sets over a list, and removing the
first match from a list whose elements' sets are pairwise disjoint. -/

namespace ListContainer

open scoped List

variable {α β : Type*}

theorem pairwise_disjoint_append_singleton {g : α → List β} {l : List α} {a : α} :
    (l ++ [a]).Pairwise (fun x y => (g x).Disjoint (g y)) ↔
      l.Pairwise (fun x y => (g x).Disjoint (g y)) ∧ ∀ x ∈ l, (g x).Disjoint (g a) := by
  simp [List.pairwise_append]

section DecidableEq

variable [DecidableEq β]

/-- Erasing the first element matching `p` from a list of pairwise disjoint sets removes
exactly that element's set from the union. -/
theorem toFinset_flatMap_eraseP {g : α → List β} {p : α → Bool} {l : List α} {a : α}
    (hd : l.Pairwise fun x y => (g x).Disjoint (g y)) (ha : l.find? p = some a) :
    ((l.eraseP p).flatMap g).toFinset = (l.flatMap g).toFinset \ (g a).toFinset := by
  obtain ⟨hpa, as, bs, rfl, has⟩ := List.find?_eq_some_iff_append.1 ha
  have hskip : ∀ x ∈ as, ¬p x := fun x hx => by simpa using has x hx
  rw [List.eraseP_append_right _ hskip, List.eraseP_cons_of_pos hpa]
  obtain ⟨-, hbs, hcross⟩ := List.pairwise_append.1 hd
  have hbs' := (List.pairwise_cons.1 hbs).1
  ext b
  simp only [Finset.mem_sdiff, List.mem_toFinset, List.mem_flatMap, List.mem_append,
    List.mem_cons]
  constructor
  · rintro ⟨x, hx | hx, hb⟩
    · exact ⟨⟨x, Or.inl hx, hb⟩, fun hba => hcross x hx a List.mem_cons_self hb hba⟩
    · exact ⟨⟨x, Or.inr (Or.inr hx), hb⟩, fun hba => hbs' x hx hba hb⟩
  · rintro ⟨⟨x, hx | rfl | hx, hb⟩, hna⟩
    · exact ⟨x, Or.inl hx, hb⟩
    · exact absurd hb hna
    · exact ⟨x, Or.inr hx, hb⟩

end DecidableEq

theorem perm_cons_eraseP_of_find? {p : α → Bool} {l : List α} {a : α}
    (h : l.find? p = some a) : l ~ a :: l.eraseP p := by
  obtain ⟨hpa, as, bs, rfl, has⟩ := List.find?_eq_some_iff_append.1 h
  have hskip : ∀ x ∈ as, ¬p x := fun x hx => by simpa using has x hx
  rw [List.eraseP_append_right _ hskip, List.eraseP_cons_of_pos hpa]
  exact List.perm_middle

theorem count_map_filter_add [BEq β] [LawfulBEq β] (f : α → β) (p : α → Bool) (l : List α)
    (b : β) :
    ((l.filter p).map f).count b + ((l.filter (!p ·)).map f).count b = (l.map f).count b := by
  rw [← List.count_append, ← List.map_append]
  exact ((List.filter_append_perm p l).map f).count_eq b

theorem Subperm.nodup {l₁ l₂ : List α} (h : l₁ <+~ l₂) (hd : l₂.Nodup) : l₁.Nodup := by
  obtain ⟨l, hperm, hsub⟩ := h
  exact hperm.nodup_iff.1 (hd.sublist hsub)

/-- Replacing one list of a list of lists: the flattening loses the old list's elements and gains
the new one's. -/
theorem perm_flatten_set {L : List (List α)} {i : ℕ} {old : List α} (hold : L[i]? = some old)
    (new : List α) : ((L.set i new).flatten ++ old) ~ (L.flatten ++ new) := by
  induction L generalizing i with
  | nil => cases hold
  | cons l L ih =>
    cases i with
    | zero =>
      obtain rfl : l = old := Option.some.inj hold
      rw [List.set_cons_zero, List.flatten_cons, List.flatten_cons]
      calc (new ++ L.flatten) ++ l ~ l ++ (new ++ L.flatten) := List.perm_append_comm
        _ ~ l ++ (L.flatten ++ new) := List.perm_append_comm.append_left l
        _ = (l ++ L.flatten) ++ new := (List.append_assoc _ _ _).symm
    | succ i =>
      rw [List.set_cons_succ, List.flatten_cons, List.flatten_cons, List.append_assoc,
        List.append_assoc]
      exact (ih hold).append_left l

/-- Erasing every key of a list from a map kept as a function to `Option`. -/
theorem foldl_update_none_apply [DecidableEq α] (l : List α) (f : α → Option β) (x : α) :
    l.foldl (fun g k => Function.update g k none) f x = if x ∈ l then none else f x := by
  induction l generalizing f with
  | nil => simp
  | cons k l ih =>
    rw [List.foldl_cons, ih]
    by_cases hx : x = k <;> simp [hx]

theorem Pairwise.eraseP {R : α → α → Prop} {l : List α} (p : α → Bool)
    (h : l.Pairwise R) : (l.eraseP p).Pairwise R :=
  h.sublist (List.eraseP_sublist)

theorem find?_eq_some_of_unique {l : List α} {p : α → Bool} {a : α} (ha : a ∈ l)
    (hpa : p a = true) (huniq : ∀ b ∈ l, p b = true → b = a) : l.find? p = some a := by
  cases hfind : l.find? p with
  | none => exact absurd hpa (List.find?_eq_none.1 hfind a ha)
  | some b => rw [huniq b (List.mem_of_find?_eq_some hfind) (List.find?_some hfind)]

theorem find?_eraseP_of_disjoint {l : List α} {p q : α → Bool}
    (h : ∀ a, q a = true → p a = false) : (l.eraseP p).find? q = l.find? q := by
  induction l with
  | nil => rfl
  | cons a l ih =>
    by_cases hp : p a = true
    · have hq : q a = false := by
        cases hqa : q a
        · rfl
        · exact absurd hp (by rw [h a hqa]; decide)
      rw [List.eraseP_cons_of_pos hp, List.find?_cons_of_neg (by rw [hq]; decide)]
    · rw [List.eraseP_cons_of_neg hp]
      by_cases hq : q a = true
      · rw [List.find?_cons_of_pos hq, List.find?_cons_of_pos hq]
      · rw [List.find?_cons_of_neg hq, List.find?_cons_of_neg hq, ih]

theorem find?_eraseP_eq_none [BEq β] [LawfulBEq β] {f : α → β} {l : List α} (b : β)
    (hnodup : (l.map f).Nodup) : (l.eraseP (f · == b)).find? (f · == b) = none := by
  induction l with
  | nil => rfl
  | cons a l ih =>
    rw [List.map_cons, List.nodup_cons] at hnodup
    by_cases ha : (f a == b) = true
    · rw [List.eraseP_cons_of_pos (p := (f · == b)) ha, List.find?_eq_none]
      intro x hx hxb
      rw [beq_iff_eq] at ha hxb
      exact hnodup.1 (List.mem_map.2 ⟨x, hx, hxb.trans ha.symm⟩)
    · rw [List.eraseP_cons_of_neg (p := (f · == b)) ha,
        List.find?_cons_of_neg (p := (f · == b)) ha, ih hnodup.2]

theorem le_of_mem_dropWhile {f : α → ℕ} {l : List α} {k : ℕ} {a : α}
    (hsorted : l.Pairwise fun x y => f x ≤ f y) (ha : a ∈ l.dropWhile (f · < k)) : k ≤ f a := by
  cases hd : l.dropWhile (f · < k) with
  | nil => simp [hd] at ha
  | cons x xs =>
    have hx : ¬f x < k := by
      simpa [hd] using List.head_dropWhile_not (f · < k) (l := l) (by simp [hd])
    have hsorted' : (x :: xs).Pairwise fun x y => f x ≤ f y :=
      hd ▸ hsorted.sublist (List.dropWhile_suffix _).sublist
    rw [hd, List.mem_cons] at ha
    rcases ha with rfl | ha
    · omega
    · exact le_trans (Nat.le_of_not_lt hx) (List.rel_of_pairwise_cons hsorted' ha)

/-! Index lists cut at two thresholds, as a lookup that hands the indexes below a start to a
parent does. -/

theorem takeWhile_lt_takeWhile_lt (l : List ℕ) {a b : ℕ} (hab : a ≤ b) :
    (l.takeWhile (· < b)).takeWhile (· < a) = l.takeWhile (· < a) := by
  rw [List.takeWhile_takeWhile]
  congr 1
  funext x
  simp only [decide_eq_true_eq, Bool.decide_and]
  by_cases hx : x < a
  · simp [hx, lt_of_lt_of_le hx hab]
  · simp [hx]

theorem dropWhile_lt_dropWhile_lt (l : List ℕ) {a b : ℕ} (hab : a ≤ b) :
    (l.dropWhile (· < b)).dropWhile (· < a) = l.dropWhile (· < b) := by
  cases hd : l.dropWhile (· < b) with
  | nil => rfl
  | cons x xs =>
    have hx : ¬x < b := by
      have := List.head_dropWhile_not (· < b) (l := l) (by simp [hd])
      simpa [hd] using this
    exact List.dropWhile_cons_of_neg (by simpa using fun h : x < a => hx (lt_of_lt_of_le h hab))

theorem dropWhile_lt_eq_append (l : List ℕ) {a b : ℕ} (hab : a ≤ b) :
    l.dropWhile (· < a) = (l.takeWhile (· < b)).dropWhile (· < a) ++ l.dropWhile (· < b) := by
  conv_lhs => rw [← List.takeWhile_append_dropWhile (p := (· < b)) (l := l)]
  rw [List.dropWhile_append]
  split_ifs with h
  · rw [List.isEmpty_iff.1 h, List.nil_append, dropWhile_lt_dropWhile_lt l hab]
  · rfl

/-! ## Maps kept as lists of pairs -/

section Upsert

variable [DecidableEq α]

/-- `map[a] = v` on a map kept as a list of pairs: the pair of `a` replaced, or appended. -/
def upsert : List (α × β) → α → β → List (α × β)
  | [], a, v => [(a, v)]
  | (k, w) :: l, a, v => if k = a then (a, v) :: l else (k, w) :: upsert l a v

/-- `map[a].push_back(b)` on a map of lists kept as a list of pairs. -/
def pushAt (l : List (α × List β)) (a : α) (b : β) : List (α × List β) :=
  upsert l a ((l.lookup a).getD [] ++ [b])

theorem lookup_upsert (l : List (α × β)) (a : α) (v : β) (b : α) :
    (upsert l a v).lookup b = if b = a then some v else l.lookup b := by
  induction l with
  | nil =>
    by_cases hb : b = a
    · simp [upsert, hb]
    · simp [upsert, List.lookup, beq_false_of_ne hb, hb]
  | cons e l ih =>
    obtain ⟨k, w⟩ := e
    by_cases hk : k = a
    · subst hk
      by_cases hb : b = k
      · simp [upsert, hb]
      · simp [upsert, List.lookup, beq_false_of_ne hb, hb]
    · by_cases hbk : b = k
      · subst hbk
        simp [upsert, List.lookup, hk]
      · simp [upsert, List.lookup, hk, beq_false_of_ne hbk, ih]

end Upsert

end ListContainer
