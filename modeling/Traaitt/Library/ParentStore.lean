import Mathlib.Data.List.Basic

/-! Nodes kept in a list and linked to a parent by position, as a tree of segments kept in a
vector of owning pointers. The ancestry of a node is walked with fuel. When every parent link
points to a stored node of smaller rank, any fuel above the rank gives the whole ancestry,
which then unfolds one parent at a time, and induction on the rank proves facts about it. -/

namespace ParentStore

universe u

variable {α : Type u} (parentOf : α → Option ℕ) (rank : α → ℕ)

/-- The ancestry of node `i`, node first, walked at most `fuel` steps. -/
def pathF (nodes : List α) : ℕ → ℕ → List ℕ
  | 0, _ => []
  | fuel + 1, i =>
    match nodes[i]? with
    | none => []
    | some a =>
      i :: match parentOf a with
        | none => []
        | some p => pathF nodes fuel p

/-- Every parent link points to a stored node of smaller rank. -/
def Ranked (nodes : List α) : Prop :=
  ∀ (i : ℕ) (a : α) (p : ℕ), nodes[i]? = some a → parentOf a = some p →
    ∃ b, nodes[p]? = some b ∧ rank b < rank a

/-- The whole ancestry of node `i`, walked with one step of fuel more than its rank. -/
def path (nodes : List α) (i : ℕ) : List ℕ :=
  match nodes[i]? with
  | none => []
  | some a => pathF parentOf nodes (rank a + 1) i

variable {parentOf rank} {nodes : List α}

theorem pathF_succ_of_getElem? {fuel i : ℕ} {a : α} (ha : nodes[i]? = some a) :
    pathF parentOf nodes (fuel + 1) i =
      i :: match parentOf a with
        | none => []
        | some p => pathF parentOf nodes fuel p := by
  simp only [pathF, ha]

theorem pathF_stable (h : Ranked parentOf rank nodes) :
    ∀ {f g i : ℕ} {a : α}, nodes[i]? = some a → rank a < f → rank a < g →
      pathF parentOf nodes f i = pathF parentOf nodes g i := by
  intro f
  induction f with
  | zero => intro _ _ _ _ hf; omega
  | succ f ih =>
    intro g i a ha hf hg
    obtain ⟨g, rfl⟩ : ∃ g', g = g' + 1 := ⟨g - 1, by omega⟩
    rw [pathF_succ_of_getElem? ha, pathF_succ_of_getElem? ha]
    cases hp : parentOf a with
    | none => rfl
    | some p =>
      obtain ⟨b, hb, hlt⟩ := h i a p ha hp
      exact congrArg (i :: ·) (ih hb (by omega) (by omega))

theorem path_of_getElem?_none {i : ℕ} (hi : nodes[i]? = none) : path parentOf rank nodes i = [] := by
  simp [path, hi]

theorem path_of_parentOf_none {i : ℕ} {a : α} (ha : nodes[i]? = some a) (hp : parentOf a = none) :
    path parentOf rank nodes i = [i] := by
  simp [path, ha, pathF_succ_of_getElem? ha, hp]

theorem path_of_parentOf_some (h : Ranked parentOf rank nodes) {i p : ℕ} {a : α}
    (ha : nodes[i]? = some a) (hp : parentOf a = some p) :
    path parentOf rank nodes i = i :: path parentOf rank nodes p := by
  obtain ⟨b, hb, hlt⟩ := h i a p ha hp
  simp only [path, ha, hb, pathF_succ_of_getElem? ha, hp, List.cons.injEq, true_and]
  exact pathF_stable h hb (by omega) (by omega)

/-- Induction along parent links: a property that holds of a node whenever it holds of the
node's parent holds of every stored node. -/
theorem Ranked.induction (h : Ranked parentOf rank nodes) {P : ℕ → Prop}
    (hstep : ∀ i a, nodes[i]? = some a → (∀ p, parentOf a = some p → P p) → P i) :
    ∀ i a, nodes[i]? = some a → P i := by
  suffices ∀ n i a, nodes[i]? = some a → rank a < n → P i from
    fun i a ha => this (rank a + 1) i a ha (by omega)
  intro n
  induction n with
  | zero => intro _ _ _ hlt; omega
  | succ n ih =>
    intro i a ha hlt
    refine hstep i a ha fun p hp => ?_
    obtain ⟨b, hb, hrank⟩ := h i a p ha hp
    exact ih p b hb (by omega)

theorem head_path {i : ℕ} {a : α} (ha : nodes[i]? = some a) :
    ∃ l, path parentOf rank nodes i = i :: l := by
  cases hp : parentOf a with
  | none => exact ⟨[], path_of_parentOf_none ha hp⟩
  | some p =>
    exact ⟨pathF parentOf nodes (rank a) p, by simp only [path, ha, pathF_succ_of_getElem? ha, hp]⟩

/-- The ancestry depends on the stored nodes only through their parents and ranks. -/
theorem path_eq_of_map_eq {β : Type*} {parentOf' : β → Option ℕ} {rank' : β → ℕ}
    {nodes' : List β}
    (h : nodes'.map (fun b => (parentOf' b, rank' b)) = nodes.map fun a => (parentOf a, rank a))
    (i : ℕ) : path parentOf' rank' nodes' i = path parentOf rank nodes i := by
  -- a lookup in either list gives the same parent and rank
  have hlook : ∀ j : ℕ, nodes'[j]?.map (fun b => (parentOf' b, rank' b)) =
      nodes[j]?.map fun a => (parentOf a, rank a) := by
    intro j
    rw [← List.getElem?_map, ← List.getElem?_map, h]
  have hpathF : ∀ fuel j : ℕ, pathF parentOf' nodes' fuel j = pathF parentOf nodes fuel j := by
    intro fuel
    induction fuel with
    | zero => intro j; rfl
    | succ fuel ih =>
      intro j
      have hj := hlook j
      cases hb : nodes'[j]? with
      | none =>
        cases ha : nodes[j]? with
        | none => simp only [pathF, ha, hb]
        | some a => simp [ha, hb] at hj
      | some b =>
        cases ha : nodes[j]? with
        | none => simp [ha, hb] at hj
        | some a =>
          simp only [ha, hb, Option.map_some, Option.some.injEq, Prod.mk.injEq] at hj
          rw [pathF_succ_of_getElem? hb, pathF_succ_of_getElem? ha, hj.1]
          cases parentOf a with
          | none => rfl
          | some p => exact congrArg (j :: ·) (ih p)
  have hi := hlook i
  unfold path
  cases hb : nodes'[i]? with
  | none =>
    cases ha : nodes[i]? with
    | none => rfl
    | some a => simp [ha, hb] at hi
  | some b =>
    cases ha : nodes[i]? with
    | none => simp [ha, hb] at hi
    | some a =>
      simp only [ha, hb, Option.map_some, Option.some.injEq, Prod.mk.injEq] at hi
      simp only
      rw [hi.2, hpathF]

end ParentStore
