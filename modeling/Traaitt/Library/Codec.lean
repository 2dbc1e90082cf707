import Mathlib.Data.List.Basic

/-! Readers of a stream of symbols, and the two laws that make a writer and a reader a codec:
the reader reads back what the writer writes of every value of a class, whatever follows it
(`ReadsBack`), and what the reader accepts is what the writer writes of its result, a value of
that class (`Canonical`). A reader is a `StateT` over the symbols not read yet, so a record's
reader is a `do` block of its fields' readers, peeled apart by the bind rules; `readList` reads a
count of values and `readVector` a count and then as many values. -/

namespace Codec

/-- A reader of a stream of `β`s: the value read and the stream after it, or an error. -/
abbrev Reader (β ε α : Type) := StateT (List β) (Except ε) α

variable {β ε α γ : Type}

/-! ## Running a reader -/

section Run

variable {x : Reader β ε α} {f : α → Reader β ε γ} {s s' t : List β} {a : α} {c : γ}

@[simp] theorem run_pure (a : α) (s : List β) : (pure a : Reader β ε α).run s = .ok (a, s) :=
  rfl

@[simp] theorem run_throw (e : ε) (s : List β) : (throw e : Reader β ε α).run s = .error e :=
  rfl

@[simp] theorem run_pure_eq_ok {b : α} :
    (pure a : Reader β ε α).run s = .ok (b, s') ↔ a = b ∧ s = s' := by
  rw [run_pure, Except.ok.injEq, Prod.mk.injEq]

theorem run_bind_of_ok (h : x.run s = .ok (a, t)) : (x >>= f).run s = (f a).run t := by
  rw [StateT.run_bind, h]
  rfl

theorem run_bind_eq_ok :
    (x >>= f).run s = .ok (c, s') ↔ ∃ a t, x.run s = .ok (a, t) ∧ (f a).run t = .ok (c, s') := by
  rw [StateT.run_bind]
  cases h : x.run s with
  | error e => simp [bind, Except.bind]
  | ok p =>
    obtain ⟨a, t⟩ := p
    simp [bind, Except.bind]

theorem run_map_of_ok {f : α → γ} (h : x.run s = .ok (a, t)) : (f <$> x).run s = .ok (f a, t) := by
  rw [StateT.run_map, h]
  rfl

theorem run_map_eq_ok {f : α → γ} :
    (f <$> x).run s = .ok (c, s') ↔ ∃ a, x.run s = .ok (a, s') ∧ f a = c := by
  rw [StateT.run_map]
  cases h : x.run s with
  | error e => simp [Functor.map, Except.map]
  | ok p =>
    obtain ⟨a, t⟩ := p
    simp [Functor.map, Except.map]
    exact and_comm

end Run

/-- `if (condition) throw error;` in a reader: it reads nothing. -/
def throwIf (condition : Prop) [Decidable condition] (error : ε) : Reader β ε Unit :=
  if condition then throw error else pure ()

theorem run_throwIf_neg {condition : Prop} [Decidable condition] (error : ε) (s : List β)
    (h : ¬condition) : (throwIf condition error : Reader β ε Unit).run s = .ok ((), s) := by
  rw [throwIf, if_neg h]
  rfl

theorem run_throwIf_eq_ok {condition : Prop} [Decidable condition] {error : ε} {s s' : List β}
    {u : Unit} : (throwIf condition error : Reader β ε Unit).run s = .ok (u, s') ↔
      ¬condition ∧ s' = s := by
  unfold throwIf
  split_ifs with h
  · rw [run_throw]
    simp [h]
  · simp only [run_pure, Except.ok.injEq, Prod.mk.injEq, h, not_false_eq_true, true_and]
    exact eq_comm

/-! ## The two laws -/

/-- `read` reads back what `write` writes of every value satisfying `P`, whatever follows. -/
def ReadsBack (read : Reader β ε α) (write : α → List β) (P : α → Prop) : Prop :=
  ∀ a, P a → ∀ rest, read.run (write a ++ rest) = .ok (a, rest)

/-- What `read` accepts is what `write` writes of its result, a value satisfying `P`. -/
def Canonical (read : Reader β ε α) (write : α → List β) (P : α → Prop) : Prop :=
  ∀ s a rest, read.run s = .ok (a, rest) → P a ∧ s = write a ++ rest

variable {read : Reader β ε α} {write : α → List β} {P : α → Prop}

theorem ReadsBack.map {f : α → γ} {g : γ → α} {Q : γ → Prop} (h : ReadsBack read write P)
    (hP : ∀ c, Q c → P (g c)) (hfg : ∀ c, Q c → f (g c) = c) :
    ReadsBack (f <$> read) (fun c => write (g c)) Q := by
  intro c hc rest
  rw [run_map_of_ok (h (g c) (hP c hc) rest), hfg c hc]

theorem Canonical.map {f : α → γ} {g : γ → α} {Q : γ → Prop} (h : Canonical read write P)
    (hQ : ∀ a, P a → Q (f a)) (hgf : ∀ a, P a → g (f a) = a) :
    Canonical (f <$> read) (fun c => write (g c)) Q := by
  intro s c rest hrun
  obtain ⟨a, hread, rfl⟩ := run_map_eq_ok.1 hrun
  obtain ⟨ha, hs⟩ := h s a rest hread
  refine ⟨hQ a ha, ?_⟩
  show s = write (g (f a)) ++ rest
  rw [hgf a ha, hs]

/-! ## Lists -/

/-- `count` values read one after another. -/
def readList (read : Reader β ε α) : ℕ → Reader β ε (List α)
  | 0 => pure []
  | count + 1 => do
    let a ← read
    let as ← readList read count
    pure (a :: as)

theorem ReadsBack.readList (h : ReadsBack read write P) :
    ∀ as : List α, (∀ a ∈ as, P a) → ∀ rest,
      (Codec.readList read as.length).run (as.flatMap write ++ rest) = .ok (as, rest)
  | [], _, rest => rfl
  | a :: as, hP, rest => by
    have hhead := h a (hP a List.mem_cons_self) (as.flatMap write ++ rest)
    have htail := ReadsBack.readList h as (fun b hb => hP b (List.mem_cons_of_mem a hb)) rest
    rw [List.length_cons, Codec.readList, List.flatMap_cons, List.append_assoc,
      run_bind_of_ok hhead, run_bind_of_ok htail]
    rfl

theorem Canonical.readList (h : Canonical read write P) :
    ∀ count, Canonical (Codec.readList read count) (fun as => as.flatMap write)
      (fun as => as.length = count ∧ ∀ a ∈ as, P a)
  | 0, s, as, rest, hrun => by
    rw [Codec.readList, run_pure_eq_ok] at hrun
    obtain ⟨rfl, rfl⟩ := hrun
    simp
  | count + 1, s, as, rest, hrun => by
    rw [Codec.readList] at hrun
    obtain ⟨a, t, hhead, hrun⟩ := run_bind_eq_ok.1 hrun
    obtain ⟨as', t', htail, hrun⟩ := run_bind_eq_ok.1 hrun
    obtain ⟨rfl, rfl⟩ := run_pure_eq_ok.1 hrun
    obtain ⟨ha, hs⟩ := h s a t hhead
    obtain ⟨⟨hlength, has⟩, ht⟩ := Canonical.readList h count t as' t' htail
    refine ⟨⟨by rw [List.length_cons, hlength], ?_⟩, ?_⟩
    · intro b hb
      rcases List.mem_cons.1 hb with rfl | hb
      · exact ha
      · exact has b hb
    · beta_reduce at ht ⊢
      rw [hs, ht, List.flatMap_cons, List.append_assoc]

/-- A count, and then as many values. -/
def readVector (readSize : Reader β ε ℕ) (read : Reader β ε α) : Reader β ε (List α) := do
  let size ← readSize
  readList read size

/-- What `readVector` reads: the count as `writeSize` writes it, and the values. -/
def writeVector (writeSize : ℕ → List β) (write : α → List β) (as : List α) : List β :=
  writeSize as.length ++ as.flatMap write

variable {readSize : Reader β ε ℕ} {writeSize : ℕ → List β} {S : ℕ → Prop}

theorem ReadsBack.readVector (hsize : ReadsBack readSize writeSize S) (h : ReadsBack read write P) :
    ReadsBack (Codec.readVector readSize read) (writeVector writeSize write)
      (fun as => S as.length ∧ ∀ a ∈ as, P a) := by
  rintro as ⟨hS, hP⟩ rest
  rw [Codec.readVector, writeVector, List.append_assoc,
    run_bind_of_ok (hsize as.length hS (as.flatMap write ++ rest))]
  exact h.readList as hP rest

theorem Canonical.readVector (hsize : Canonical readSize writeSize S) (h : Canonical read write P) :
    Canonical (Codec.readVector readSize read) (writeVector writeSize write)
      (fun as => S as.length ∧ ∀ a ∈ as, P a) := by
  intro s as rest hrun
  obtain ⟨size, t, hreadSize, hrun⟩ := run_bind_eq_ok.1 hrun
  obtain ⟨hS, hs⟩ := hsize s size t hreadSize
  obtain ⟨⟨hlength, hP⟩, ht⟩ := h.readList size t as rest hrun
  subst hlength
  exact ⟨⟨hS, hP⟩, by rw [hs, ht, writeVector, List.append_assoc]⟩

/-! ## One value for each element of a list -/

section MapM

variable {ι : Type} {read : ι → Reader β ε α} {P : ι → α → Prop}

/-- One reader for each element of a list, all with one writer: they read back one value for
each element, related to it by `P`. -/
theorem readsBack_mapM (h : ∀ i, ReadsBack (read i) write (P i)) :
    ∀ {is : List ι} {as : List α}, List.Forall₂ P is as → ∀ rest,
      (is.mapM read).run (as.flatMap write ++ rest) = .ok (as, rest)
  | [], [], .nil, rest => rfl
  | i :: _, a :: as, .cons ha has, rest => by
    have hhead := h i a ha (as.flatMap write ++ rest)
    rw [List.mapM_cons, List.flatMap_cons, List.append_assoc, run_bind_of_ok hhead,
      run_bind_of_ok (readsBack_mapM h has rest)]
    rfl

theorem canonical_mapM (h : ∀ i, Canonical (read i) write (P i)) :
    ∀ (is : List ι) s as rest, (is.mapM read).run s = .ok (as, rest) →
      List.Forall₂ P is as ∧ s = as.flatMap write ++ rest
  | [], s, as, rest, hrun => by
    rw [List.mapM_nil, run_pure_eq_ok] at hrun
    obtain ⟨rfl, rfl⟩ := hrun
    simp
  | i :: is, s, as, rest, hrun => by
    rw [List.mapM_cons] at hrun
    obtain ⟨a, t, hhead, hrun⟩ := run_bind_eq_ok.1 hrun
    obtain ⟨as', t', htail, hrun⟩ := run_bind_eq_ok.1 hrun
    obtain ⟨rfl, rfl⟩ := run_pure_eq_ok.1 hrun
    obtain ⟨ha, hs⟩ := h i s a t hhead
    obtain ⟨has, ht⟩ := canonical_mapM h is t as' t' htail
    exact ⟨.cons ha has, by rw [hs, ht, List.flatMap_cons, List.append_assoc]⟩

end MapM

end Codec
