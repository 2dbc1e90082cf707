import Mathlib.Data.List.Basic

/-! Fallible code in `Except`: a call that throws changes nothing, so a successful run of
a sequence of calls is a chain of successful calls. Checks (`throwIf`) and lookups
(`ofOption`) that throw are plain calls, so that a `do` block of them is a chain of binds; the
bind rule peels it apart, and the fold rule carries an invariant through a loop of fallible
calls. -/

namespace ExceptRun

universe u v

variable {ε : Type u} {α β : Type v}

@[simp] theorem bind_eq_ok {x : Except ε α} {f : α → Except ε β} {b : β} :
    x >>= f = .ok b ↔ ∃ a, x = .ok a ∧ f a = .ok b := by
  cases x <;> simp [bind, Except.bind]

@[simp] theorem ok_bind (a : α) (f : α → Except ε β) : (Except.ok a >>= f) = f a := rfl

@[simp] theorem map_ok (f : α → β) (a : α) : (f <$> Except.ok a : Except ε β) = .ok (f a) := rfl

@[simp] theorem pure_eq_ok {a b : α} : (pure a : Except ε α) = .ok b ↔ a = b := by
  simp [pure, Except.pure]

/-- A chain whose every continuation throws throws, whatever its first call does. -/
theorem exists_error_bind {x : Except ε α} {f : α → Except ε β} (hf : ∀ a, ∃ e, f a = .error e) :
    ∃ e, (x >>= f) = .error e := by
  cases x with
  | error e => exact ⟨e, rfl⟩
  | ok a => exact hf a

/-- `if (condition) return error;`: a check that throws, or lets the code go on. -/
def throwIf (condition : Prop) [Decidable condition] (error : ε) : Except ε Unit :=
  if condition then throw error else pure ()

/-- A lookup that throws `error` when it finds nothing. -/
def ofOption (error : ε) : Option α → Except ε α
  | some a => pure a
  | none => throw error

@[simp] theorem throwIf_eq_ok {condition : Prop} [Decidable condition] {error : ε} {u : Unit} :
    throwIf condition error = .ok u ↔ ¬condition := by
  unfold throwIf
  split_ifs with h <;> simp [h, pure, Except.pure]

theorem throwIf_neg {condition : Prop} [Decidable condition] (error : ε) (h : ¬condition) :
    throwIf condition error = .ok () := by
  rw [throwIf, if_neg h]
  rfl

theorem throwIf_pos {condition : Prop} [Decidable condition] (error : ε) (h : condition) :
    throwIf condition error = .error error := by
  rw [throwIf, if_pos h]
  rfl

@[simp] theorem error_bind (e : ε) (f : α → Except ε β) : (Except.error e >>= f) = .error e :=
  rfl

@[simp] theorem ofOption_eq_ok {error : ε} {o : Option α} {a : α} :
    ofOption error o = .ok a ↔ o = some a := by
  cases o <;> simp [ofOption, throw, throwThe, MonadExceptOf.throw, pure, Except.pure]

@[simp] theorem mapError_eq_ok {ε' : Type u} {f : ε → ε'} {x : Except ε α} {a : α} :
    x.mapError f = .ok a ↔ x = .ok a := by
  cases x <;> simp [Except.mapError]

@[simp] theorem map_eq_ok {f : α → β} {x : Except ε α} {b : β} :
    x.map f = .ok b ↔ ∃ a, x = .ok a ∧ f a = b := by
  cases x <;> simp [Except.map]

/-- An invariant of every call in a loop of fallible calls holds after a run of the whole
loop that did not throw. -/
theorem foldlM_invariant {f : β → α → Except ε β} (P : β → Prop) {l : List α} {init b : β}
    (hstep : ∀ x ∈ l, ∀ s s', P s → f s x = .ok s' → P s') (hinit : P init)
    (h : l.foldlM f init = .ok b) : P b := by
  induction l generalizing init with
  | nil =>
    rw [List.foldlM_nil, pure_eq_ok] at h
    exact h ▸ hinit
  | cons x l ih =>
    rw [List.foldlM_cons] at h
    obtain ⟨s, hs, hrest⟩ := bind_eq_ok.1 h
    have hs' : P s := hstep x List.mem_cons_self init s hinit hs
    exact ih (fun y hy => hstep y (List.mem_cons_of_mem x hy)) hs' hrest

/-- A loop whose every call gives back the state it is called in ends in the state it started
in. -/
theorem foldlM_fixed {f : β → α → Except ε β} {s : β} :
    ∀ {l : List α}, (∀ x ∈ l, f s x = .ok s) → l.foldlM f s = .ok s
  | [], _ => rfl
  | x :: l, h => by
    rw [List.foldlM_cons, h x List.mem_cons_self, ok_bind]
    exact foldlM_fixed fun y hy => h y (List.mem_cons_of_mem x hy)

theorem foldlM_step_ok {f : β → α → Except ε β} {l : List α} {init b : β}
    (h : l.foldlM f init = .ok b) : ∀ x ∈ l, ∃ s s', f s x = .ok s' := by
  induction l generalizing init with
  | nil => intro x hx; simp at hx
  | cons y l ih =>
    rw [List.foldlM_cons] at h
    obtain ⟨s, hs, hrest⟩ := bind_eq_ok.1 h
    intro x hx
    rcases List.mem_cons.1 hx with rfl | hx
    · exact ⟨init, s, hs⟩
    · exact ih hrest x hx

theorem mapM_congr {f g : α → Except ε β} :
    ∀ {l : List α}, (∀ x ∈ l, f x = g x) → l.mapM f = l.mapM g
  | [], _ => rfl
  | x :: l, h => by
    rw [List.mapM_cons, List.mapM_cons, h x List.mem_cons_self,
      mapM_congr fun y hy => h y (List.mem_cons_of_mem x hy)]

theorem forall₂_of_mapM_eq_ok {f : α → Except ε β} :
    ∀ {l : List α} {l' : List β}, l.mapM f = .ok l' → List.Forall₂ (fun a b => f a = .ok b) l l'
  | [], l', h => by
    rw [List.mapM_nil, pure_eq_ok] at h
    exact h ▸ List.Forall₂.nil
  | x :: l, l', h => by
    rw [List.mapM_cons] at h
    obtain ⟨b, hb, hrest⟩ := bind_eq_ok.1 h
    obtain ⟨bs, hbs, hl'⟩ := bind_eq_ok.1 hrest
    rw [pure_eq_ok] at hl'
    exact hl' ▸ List.Forall₂.cons hb (forall₂_of_mapM_eq_ok hbs)


/-! ## The errors a computation throws -/

/-- Every error that `x` throws satisfies `P`. -/
def ThrowsOnly (P : ε → Prop) (x : Except ε α) : Prop :=
  ∀ e, x = .error e → P e

variable {P : ε → Prop}

theorem throwsOnly_pure (a : α) : ThrowsOnly P (pure a : Except ε α) := by
  intro e h
  cases h

theorem throwsOnly_throwIf {condition : Prop} [Decidable condition] {error : ε}
    (h : P error) : ThrowsOnly P (throwIf condition error) := by
  intro e he
  unfold throwIf at he
  split_ifs at he
  · cases he
    exact h
  · cases he

theorem throwsOnly_ofOption {error : ε} (h : P error) (o : Option α) :
    ThrowsOnly P (ofOption error o) := by
  intro e he
  cases o with
  | none =>
    cases he
    exact h
  | some a => cases he

theorem throwsOnly_ite {condition : Prop} [Decidable condition] {x y : Except ε α}
    (hx : ThrowsOnly P x) (hy : ThrowsOnly P y) : ThrowsOnly P (if condition then x else y) := by
  split_ifs
  · exact hx
  · exact hy

/-- A sequence throws only what its calls throw. -/
theorem ThrowsOnly.bind {x : Except ε α} {f : α → Except ε β} (hx : ThrowsOnly P x)
    (hf : ∀ a, ThrowsOnly P (f a)) : ThrowsOnly P (x >>= f) := by
  intro e he
  cases hxe : x with
  | error e' =>
    rw [hxe] at he
    cases he
    exact hx _ hxe
  | ok a =>
    rw [hxe] at he
    exact hf a e he

/-- A loop throws only what its calls throw. -/
theorem ThrowsOnly.forM {f : α → Except ε PUnit} :
    ∀ {l : List α}, (∀ a ∈ l, ThrowsOnly P (f a)) → ThrowsOnly P (forM l f)
  | [], _ => throwsOnly_pure _
  | a :: l, hf => by
    rw [List.forM_cons]
    exact (hf a List.mem_cons_self).bind fun _ =>
      ThrowsOnly.forM fun b hb => hf b (List.mem_cons_of_mem a hb)

theorem forM_eq_ok {f : α → Except ε PUnit} :
    ∀ {l : List α}, forM l f = .ok ⟨⟩ ↔ ∀ a ∈ l, f a = .ok ⟨⟩
  | [] => by simp [pure, Except.pure]
  | a :: l => by
    rw [List.forM_cons, bind_eq_ok, forM_eq_ok, List.forall_mem_cons]
    constructor
    · rintro ⟨⟨⟩, ha, hl⟩
      exact ⟨ha, hl⟩
    · rintro ⟨ha, hl⟩
      exact ⟨⟨⟩, ha, hl⟩

end ExceptRun
