import SqlDump.Proofs.Result
/-!
# Success that transfers

Two computations that do the same on different data are compared by their successful results: where
the one succeeds, so does the other, with a related result. Nothing is said where the first one
fails. The relation goes through programs step by step.
-/

namespace SqlDump.Codec

variable {ε ε' α α' β β' σ τ : Type}

/-- Where `x` succeeds, so does `y`, and their results are related. -/
def Transfers (R : α → β → Prop) (x : Except ε α) (y : Except ε' β) : Prop :=
  ∀ a, x = .ok a → ∃ b, y = .ok b ∧ R a b

namespace Transfers

variable {R : α → β → Prop} {x : Except ε α} {y : Except ε' β}

theorem pure {a : α} {b : β} (h : R a b) :
    Transfers R (Pure.pure a : Except ε α) (Pure.pure b : Except ε' β) := by
  rintro _ ⟨⟩
  exact ⟨b, rfl, h⟩

theorem error (e : ε) : Transfers R (.error e) y := nofun

theorem bind {Q : α' → β' → Prop} {f : α → Except ε α'} {g : β → Except ε' β'}
    (hxy : Transfers R x y) (hfg : ∀ a b, R a b → Transfers Q (f a) (g b)) :
    Transfers Q (x >>= f) (y >>= g) := by
  intro c hc
  obtain ⟨a, rfl, hf⟩ := bind_eq_ok.1 hc
  obtain ⟨b, rfl, hab⟩ := hxy a rfl
  exact hfg a b hab c hf

/-- Steps with equal results go on alike. -/
theorem bindEq {x' : Except ε' α} {Q : α' → β' → Prop} {f : α → Except ε α'} {g : α → Except ε' β'}
    (hx : Transfers Eq x x') (hfg : ∀ a, Transfers Q (f a) (g a)) :
    Transfers Q (x >>= f) (x' >>= g) := by
  refine hx.bind ?_
  rintro a _ rfl
  exact hfg a

/-- The same where the first success shows a fact that what follows can use. -/
theorem bindAnd {P : Prop} {x' : Except ε' α} {Q : α' → β' → Prop} {f : α → Except ε α'}
    {g : α → Except ε' β'} (hx : Transfers (fun a b => a = b ∧ P) x x')
    (hfg : P → ∀ a, Transfers Q (f a) (g a)) : Transfers Q (x >>= f) (x' >>= g) := by
  refine hx.bind ?_
  rintro a _ ⟨rfl, hP⟩
  exact hfg hP a

/-- A check that is passed on the one side is passed on the other. -/
theorem guard {p q : Prop} [Decidable p] [Decidable q] {e : ε} {e' : ε'} {f : PUnit → Except ε α}
    {g : PUnit → Except ε' β} (hpq : ¬p → ¬q) (hxy : ¬p → Transfers R x y) :
    Transfers R (if p then throw e >>= f else x) (if q then throw e' >>= g else y) := by
  split
  · exact error e
  · next hp =>
    rw [if_neg (hpq hp)]
    exact hxy hp

theorem ite {p q : Prop} [Decidable p] [Decidable q] {x₁ x₂ : Except ε α} {y₁ y₂ : Except ε' β}
    (hpq : p ↔ q) (h₁ : p → Transfers R x₁ y₁) (h₂ : ¬p → Transfers R x₂ y₂) :
    Transfers R (if p then x₁ else x₂) (if q then y₁ else y₂) := by
  split
  · next hp =>
    rw [if_pos (hpq.1 hp)]
    exact h₁ hp
  · next hp =>
    rw [if_neg (mt hpq.2 hp)]
    exact h₂ hp

theorem refl (x : Except ε α) : Transfers Eq x x := fun a ha => ⟨a, ha, rfl⟩

theorem ok {z : Except ε' α} (h : Transfers Eq x z) {a : α} (ha : x = .ok a) : z = .ok a := by
  obtain ⟨b, hb, rfl⟩ := h a ha
  exact hb

end Transfers

/-! ## Optional results -/

/-- Where `x` has a result, so does `y`, and the results are related. -/
def TransfersSome (R : α → β → Prop) (x : Option α) (y : Option β) : Prop :=
  ∀ a, x = some a → ∃ b, y = some b ∧ R a b

namespace TransfersSome

variable {R : α → β → Prop} {x : Option α} {y : Option β}

theorem some {a : α} {b : β} (h : R a b) : TransfersSome R (some a) (some b) := by
  rintro _ ⟨⟩
  exact ⟨b, rfl, h⟩

theorem none : TransfersSome R none y := nofun

theorem bind {Q : α' → β' → Prop} {f : α → Option α'} {g : β → Option β'}
    (hxy : TransfersSome R x y) (hfg : ∀ a b, R a b → TransfersSome Q (f a) (g b)) :
    TransfersSome Q (x >>= f) (y >>= g) := by
  intro c hc
  obtain ⟨a, rfl, hf⟩ := Option.bind_eq_some_iff.1 hc
  obtain ⟨b, rfl, hab⟩ := hxy a rfl
  exact hfg a b hab c hf

theorem guard {p q : Prop} [Decidable p] [Decidable q] {f : PUnit → Option α} {g : PUnit → Option β}
    (hpq : ¬p → ¬q) (hxy : ¬p → TransfersSome R x y) :
    TransfersSome R (if p then Option.none >>= f else x) (if q then Option.none >>= g else y) := by
  split
  · exact none
  · next hp =>
    rw [if_neg (hpq hp)]
    exact hxy hp

theorem ite {p q : Prop} [Decidable p] [Decidable q] {x₁ x₂ : Option α} {y₁ y₂ : Option β}
    (hpq : p ↔ q) (h₁ : p → TransfersSome R x₁ y₁) (h₂ : ¬p → TransfersSome R x₂ y₂) :
    TransfersSome R (if p then x₁ else x₂) (if q then y₁ else y₂) := by
  split
  · next hp =>
    rw [if_pos (hpq.1 hp)]
    exact h₁ hp
  · next hp =>
    rw [if_neg (mt hpq.2 hp)]
    exact h₂ hp

theorem refl (x : Option α) : TransfersSome Eq x x := fun a ha => ⟨a, ha, rfl⟩

end TransfersSome

/-! ## Computations on a state -/

/-- Results that are equal but for a state, and the states are related. -/
def WithEq (S : σ → τ → Prop) (a : α × σ) (b : α × τ) : Prop := a.1 = b.1 ∧ S a.2 b.2

/-- The same for computations on related states, which give equal results and related states. -/
def TransfersOn (S : σ → τ → Prop) (m : StateT σ (Except ε) α) (n : StateT τ (Except ε') α) : Prop :=
  ∀ s t, S s t → Transfers (WithEq S) (m s) (n t)

namespace TransfersOn

variable {S : σ → τ → Prop} {m : StateT σ (Except ε) α} {n : StateT τ (Except ε') α}

theorem pure (a : α) :
    TransfersOn S (Pure.pure a : StateT σ (Except ε) α) (Pure.pure a : StateT τ (Except ε') α) :=
  fun _ _ hst => .pure ⟨rfl, hst⟩

theorem error (e : ε) : TransfersOn S (throw e : StateT σ (Except ε) α) n := fun _ _ _ => .error e

theorem bind {f : α → StateT σ (Except ε) β} {g : α → StateT τ (Except ε') β}
    (hmn : TransfersOn S m n) (hfg : ∀ a, TransfersOn S (f a) (g a)) :
    TransfersOn S (m >>= f) (n >>= g) := by
  intro s t hst
  refine (hmn s t hst).bind ?_
  rintro ⟨a, s'⟩ ⟨_, t'⟩ ⟨rfl, hst'⟩
  exact hfg a s' t' hst'

theorem guard {p : Prop} [Decidable p] {e : ε} {e' : ε'} {f : PUnit → StateT σ (Except ε) α}
    {g : PUnit → StateT τ (Except ε') α} (hmn : TransfersOn S m n) :
    TransfersOn S (if p then throw e >>= f else m) (if p then throw e' >>= g else n) := by
  split
  · exact fun _ _ _ => .error e
  · exact hmn

theorem ite {p : Prop} [Decidable p] {m₁ m₂ : StateT σ (Except ε) α} {n₁ n₂ : StateT τ (Except ε') α}
    (h₁ : TransfersOn S m₁ n₁) (h₂ : TransfersOn S m₂ n₂) :
    TransfersOn S (if p then m₁ else m₂) (if p then n₁ else n₂) := by
  split
  · exact h₁
  · exact h₂

/-- What is done with the state is compared on related states. -/
theorem getBind {f : σ → StateT σ (Except ε) α} {g : τ → StateT τ (Except ε') α}
    (h : ∀ s t, S s t → TransfersOn S (f s) (g t)) : TransfersOn S (get >>= f) (get >>= g) :=
  fun s t hst => h s t hst s t hst

theorem modify {f : σ → σ} {g : τ → τ} (h : ∀ s t, S s t → S (f s) (g t)) :
    TransfersOn S (modify f : StateT σ (Except ε) PUnit) (modify g : StateT τ (Except ε') PUnit) :=
  fun s t hst => .pure ⟨rfl, h s t hst⟩

theorem modifyGet {f : σ → α × σ} {g : τ → α × τ}
    (h : ∀ s t, S s t → (f s).1 = (g t).1 ∧ S (f s).2 (g t).2) :
    TransfersOn S (modifyGet f : StateT σ (Except ε) α) (modifyGet g : StateT τ (Except ε') α) :=
  fun s t hst => .pure (h s t hst)

end TransfersOn

end SqlDump.Codec
