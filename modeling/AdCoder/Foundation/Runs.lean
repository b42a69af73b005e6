import Mathlib.Data.List.Basic

/-!
# Labelled runs and checked computations

A run takes finitely many labelled steps from a start state. An invariant of
one step is an invariant of every run; a property that one step keeps only
under a condition is kept by every run whose steps all meet the condition.
-/

namespace AdCoder.Foundation

universe u

variable {σ ℓ ε : Type*} {α β : Type u}

/-- The states reached from a start state, with the labels of the steps taken. -/
inductive Run (step : σ → ℓ → σ → Prop) : σ → List ℓ → σ → Prop
  | refl (s : σ) : Run step s [] s
  | tail {s t u : σ} {labels : List ℓ} {label : ℓ}
      (run : Run step s labels t) (last : step t label u) :
      Run step s (labels ++ [label]) u

/-- The steps taken from states where `allowed` holds of the label. -/
def Guarded (step : σ → ℓ → σ → Prop) (allowed : σ → ℓ → Prop) : σ → ℓ → σ → Prop :=
  fun s label t => allowed s label ∧ step s label t

namespace Run

variable {step : σ → ℓ → σ → Prop} {s t u : σ} {labels : List ℓ}

/-- What every step preserves holds at the end of every run. -/
theorem invariant {I : σ → Prop} (run : Run step s labels t)
    (preserved : ∀ {a label b}, I a → step a label b → I b) (start : I s) : I t := by
  induction run with
  | refl => exact start
  | tail _ last ih => exact preserved ih last

/-- An invariant that also reads the labels taken so far. -/
theorem invariant_labels {I : List ℓ → σ → Prop} (run : Run step s labels t)
    (preserved : ∀ {before a label b}, I before a → step a label b → I (before ++ [label]) b)
    (start : I [] s) : I labels t := by
  induction run with
  | refl => exact start
  | tail _ last ih => exact preserved ih last

theorem single {label : ℓ} (first : step s label t) : Run step s [label] t := by
  simpa using (Run.refl s).tail first

theorem append {more : List ℓ} (run : Run step s labels t) (rest : Run step t more u) :
    Run step s (labels ++ more) u := by
  induction rest with
  | refl => simpa using run
  | tail _ last ih => simpa [List.append_assoc] using ih.tail last

/-- A guarded run is a run. -/
theorem forget {allowed : σ → ℓ → Prop} (run : Run (Guarded step allowed) s labels t) :
    Run step s labels t := by
  induction run with
  | refl => exact .refl s
  | tail _ last ih => exact ih.tail last.2

/-! ### Runs of a function -/

/-- Whether every label passes a check at the state where it is taken. -/
def checked (next : σ → ℓ → σ) (check : σ → ℓ → Bool) : σ → List ℓ → Bool
  | _, [] => true
  | s, label :: rest => check s label && checked next check (next s label) rest

/-- A check that every label passes holds before each of them. -/
theorem check_of_checked {next : σ → ℓ → σ} {check : σ → ℓ → Bool} {s : σ}
    {labels before after : List ℓ} {label : ℓ} (ok : checked next check s labels = true)
    (split : labels = before ++ label :: after) : check (before.foldl next s) label = true := by
  subst split
  induction before generalizing s with
  | nil => exact (Bool.and_eq_true_iff.mp ok).1
  | cons first rest ih => exact ih (Bool.and_eq_true_iff.mp ok).2

/-- Labels that all pass a check that implies the guard make a guarded run. -/
theorem guarded_foldl {next : σ → ℓ → σ} {check : σ → ℓ → Bool} {allowed : σ → ℓ → Prop}
    (sound : ∀ s label, check s label = true → allowed s label) {s : σ} {labels : List ℓ}
    (ok : checked next check s labels = true) :
    Run (Guarded (fun s label t => t = next s label) allowed) s labels
      (labels.foldl next s) := by
  induction labels generalizing s with
  | nil => exact .refl s
  | cons label rest ih =>
      obtain ⟨now, later⟩ := Bool.and_eq_true_iff.mp ok
      have first : Run (Guarded (fun s label t => t = next s label) allowed) s [label]
          (next s label) := .single ⟨sound s label now, rfl⟩
      exact first.append (ih later)

/-- Labels that are allowed everywhere make a guarded run. -/
theorem guarded_foldl_of_forall {next : σ → ℓ → σ} {allowed : σ → ℓ → Prop} {labels : List ℓ}
    (ok : ∀ label ∈ labels, ∀ s, allowed s label) (s : σ) :
    Run (Guarded (fun s label t => t = next s label) allowed) s labels
      (labels.foldl next s) := by
  induction labels generalizing s with
  | nil => exact .refl s
  | cons label rest ih =>
      have first : Run (Guarded (fun s label t => t = next s label) allowed) s [label]
          (next s label) := .single ⟨ok label List.mem_cons_self s, rfl⟩
      exact first.append (ih (fun other mem => ok other (List.mem_cons_of_mem _ mem)) _)

theorem foldl (next : σ → ℓ → σ) (s : σ) (labels : List ℓ) :
    Run (fun s label t => t = next s label) s labels (labels.foldl next s) := by
  induction labels generalizing s with
  | nil => exact .refl s
  | cons label rest ih =>
      have first : Run (fun s label t => t = next s label) s [label] (next s label) := .single rfl
      exact first.append (ih _)

end Run

/-! ## Checked computations -/

/-- Fail unless the check succeeds. -/
def require (check : Bool) (error : ε) : Except ε Unit :=
  if check then .ok () else .error error

@[simp] theorem require_eq_ok {check : Bool} {error : ε} {u : Unit} :
    require check error = .ok u ↔ check = true := by
  cases check <;> simp [require]

@[simp] theorem require_true (error : ε) : require true error = .ok () := rfl

@[simp] theorem require_false (error : ε) : require false error = .error error := rfl

/-- A sequence succeeds exactly when both of its parts do. -/
theorem bind_eq_ok {x : Except ε α} {f : α → Except ε β} {b : β} :
    (x >>= f) = .ok b ↔ ∃ a, x = .ok a ∧ f a = .ok b := by
  cases x with
  | error e => simp [bind, Except.bind]
  | ok a => simp [bind, Except.bind]

/-- A check before a computation. -/
theorem check_bind_eq_ok {γ : Type} {x : Except ε Unit} {y : Except ε γ} {b : γ} :
    (x >>= fun _ => y) = .ok b ↔ x = .ok () ∧ y = .ok b := by
  cases x <;> simp [bind, Except.bind]

/-- A mapped result comes from the result that was mapped. -/
theorem map_eq_ok {x : Except ε α} {f : α → β} {b : β} :
    x.map f = .ok b ↔ ∃ a, x = .ok a ∧ f a = b := by
  cases x with
  | error e => simp [Except.map]
  | ok a => simp [Except.map]

theorem require_bind_eq_ok {γ : Type} {check : Bool} {error : ε} {f : Unit → Except ε γ}
    {b : γ} :
    (require check error >>= f) = .ok b ↔ check = true ∧ f () = .ok b := by
  cases check <;> simp [require, bind, Except.bind]

/-- A loop of checks succeeds exactly when each of them does. -/
theorem forM_eq_ok {γ : Type} {check : γ → Except ε PUnit} {items : List γ} :
    items.forM check = .ok ⟨⟩ ↔ ∀ x ∈ items, check x = .ok ⟨⟩ := by
  induction items with
  | nil => simp [List.forM, pure, Except.pure]
  | cons x rest ih =>
      rw [List.forall_mem_cons, ← ih]
      show (check x >>= fun _ => rest.forM check) = .ok ⟨⟩ ↔ _
      constructor
      · intro h
        obtain ⟨⟨⟩, first, later⟩ := bind_eq_ok.mp h
        exact ⟨first, later⟩
      · exact fun h => bind_eq_ok.mpr ⟨⟨⟩, h.1, h.2⟩

/-- A checked map succeeds when each of its steps does. -/
theorem mapM_ok {γ : Type} {f : γ → Except ε α} {items : List γ}
    (each : ∀ x ∈ items, ∃ y, f x = .ok y) : ∃ result, items.mapM f = .ok result := by
  induction items with
  | nil => exact ⟨[], rfl⟩
  | cons x rest ih =>
      obtain ⟨y, first⟩ := each x List.mem_cons_self
      obtain ⟨ys, later⟩ := ih fun z mem => each z (List.mem_cons_of_mem x mem)
      exact ⟨y :: ys, by rw [List.mapM_cons, first]; simp [bind, Except.bind, later, pure,
        Except.pure]⟩

/-- What every step of a checked fold preserves holds of its result. -/
theorem foldlM_invariant {γ : Type*} {f : β → γ → Except ε β} {I : β → Prop}
    (preserved : ∀ {b x c}, I b → f b x = .ok c → I c) {items : List γ} {b c : β} (start : I b)
    (h : items.foldlM f b = .ok c) : I c := by
  induction items generalizing b with
  | nil =>
      obtain rfl : b = c := by simpa [pure, Except.pure] using h
      exact start
  | cons x rest ih =>
      rw [List.foldlM_cons] at h
      obtain ⟨middle, first, last⟩ := bind_eq_ok.mp h
      exact ih (preserved start first) last

/-- A checked fold goes the same way under steps that agree with those taken. -/
theorem foldlM_transfer {γ : Type*} {f f' : β → γ → Except ε β} {P : β → Prop}
    (steps : ∀ {b x c}, f b x = .ok c → P c → f' b x = .ok c ∧ P b) {items : List γ} {b c : β}
    (h : items.foldlM f b = .ok c) (last : P c) : items.foldlM f' b = .ok c ∧ P b := by
  induction items generalizing b with
  | nil =>
      obtain rfl : b = c := by simpa [pure, Except.pure] using h
      exact ⟨rfl, last⟩
  | cons x rest ih =>
      rw [List.foldlM_cons] at h ⊢
      obtain ⟨middle, first, later⟩ := bind_eq_ok.mp h
      obtain ⟨later, middle_last⟩ := ih later
      obtain ⟨first, start⟩ := steps first middle_last
      exact ⟨bind_eq_ok.mpr ⟨middle, first, later⟩, start⟩

@[simp] theorem pure_eq_ok {a b : α} : (pure a : Except ε α) = .ok b ↔ a = b := by
  simp [pure, Except.pure]

@[simp] theorem throw_ne_ok {e : ε} {a : α} : (throw e : Except ε α) ≠ .ok a := by
  simp [throw, throwThe, MonadExceptOf.throw]

/-- A checked map whose steps return what they were given. -/
theorem mapM_eq_ok_self {f : α → Except ε α} {P : α → Prop}
    (step : ∀ {x y}, f x = .ok y ↔ P x ∧ y = x) {items result : List α} :
    items.mapM f = .ok result ↔ (∀ x ∈ items, P x) ∧ result = items := by
  induction items generalizing result with
  | nil => simp [pure, Except.pure, eq_comm]
  | cons x rest ih =>
      rw [List.mapM_cons, bind_eq_ok, List.forall_mem_cons]
      constructor
      · rintro ⟨y, first, more⟩
        obtain ⟨ys, later, same⟩ := bind_eq_ok.mp more
        obtain ⟨holds, rfl⟩ := step.mp first
        obtain ⟨all, rfl⟩ := ih.mp later
        exact ⟨⟨holds, all⟩, (pure_eq_ok.mp same).symm⟩
      · rintro ⟨⟨holds, all⟩, rfl⟩
        exact ⟨x, step.mpr ⟨holds, rfl⟩, bind_eq_ok.mpr ⟨rest, ih.mpr ⟨all, rfl⟩, rfl⟩⟩

end AdCoder.Foundation
