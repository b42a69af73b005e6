import AdCoder.Foundation.Versioned

/-!
# Sections of a process that persists its state

A process holds the value that it persisted last. Between two awaits it runs a
section: it reads what it holds, writes successors of it under compare-and-swap
and returns or throws. A section that throws keeps the writes it has made.
-/

namespace AdCoder.Foundation

/-- The stored value, the one a process holds, and how many more of its writes
the storage admits. -/
structure Memory (σ : Type) where
  file : Option (VersionedState σ)
  held : VersionedState σ
  admitted : Nat

/-- A computation over the memory that may throw. -/
abbrev Section (σ ε : Type) := ExceptT ε (StateM (Memory σ))

namespace Section

variable {σ ε α β : Type}

/-- The result of a section and the memory after it. -/
def runOn (x : Section σ ε α) (m : Memory σ) : Except ε α × Memory σ := x m

/-- The value that the process holds. -/
def read : Section σ ε σ := fun m => (.ok m.held.value, m)

/-- Change the held value in memory only. -/
def assign (value : σ) : Section σ ε Unit :=
  fun m => (.ok (), { m with held := { m.held with value := value } })

/-- Replace the stored value by a successor of the held one. -/
def save (conflict refused : ε) (value : σ) : Section σ ε Unit := fun m =>
  if m.admitted = 0 then (.error refused, m)
  else if (m.file.map (·.version)).getD 0 = m.held.version then
    let next := ⟨m.held.version + 1, value⟩
    (.ok (), ⟨some next, next, m.admitted - 1⟩)
  else (.error conflict, m)

/-- A sequence runs its second part where the first one returned. -/
theorem runOn_bind (x : Section σ ε α) (f : α → Section σ ε β) (m : Memory σ) :
    (x >>= f).runOn m = match (x.runOn m).1 with
      | .ok a => (f a).runOn (x.runOn m).2
      | .error e => (.error e, (x.runOn m).2) := by
  change ExceptT.bindCont f (x m).1 (x m).2 = _
  rw [runOn]
  cases (x m).1 <;> rfl

theorem runOn_read (f : σ → Section σ ε α) (m : Memory σ) :
    (read >>= f).runOn m = (f m.held.value).runOn m := by
  rw [runOn_bind]
  rfl

/-- Every value in the memory satisfies the predicate. -/
structure Within (S : σ → Prop) (m : Memory σ) : Prop where
  file : ∀ stored ∈ m.file, S stored.value
  held : S m.held.value

/-- A section leaves only values that satisfy `S` if it starts with such, and
what it returns satisfies `Q`. -/
def Keeps (S : σ → Prop) (x : Section σ ε α) (Q : α → Prop) : Prop :=
  ∀ m, Within S m → Within S (x.runOn m).2 ∧ ∀ a, (x.runOn m).1 = .ok a → Q a

namespace Keeps

variable {S : σ → Prop} {Q : α → Prop} {R : β → Prop}

theorem returns {a : α} (h : Q a) : Keeps S (pure a : Section σ ε α) Q := by
  intro m within
  refine ⟨within, ?_⟩
  intro b hb
  obtain rfl : a = b := Except.ok.inj hb
  exact h

theorem throws {error : ε} : Keeps S (throw error : Section σ ε α) Q := by
  intro m within
  refine ⟨within, ?_⟩
  intro a ha
  cases ha

theorem bind {x : Section σ ε α} {f : α → Section σ ε β} (first : Keeps S x Q)
    (next : ∀ a, Q a → Keeps S (f a) R) : Keeps S (x >>= f) R := by
  intro m within
  obtain ⟨within', returned⟩ := first m within
  rw [runOn_bind]
  cases result : (x.runOn m).1 with
  | ok a => exact next a (returned a result) _ within'
  | error e =>
      refine ⟨within', ?_⟩
      intro b hb
      cases hb

theorem reads : Keeps S (read : Section σ ε σ) S := by
  intro m within
  refine ⟨within, ?_⟩
  intro a ha
  obtain rfl := Except.ok.inj ha
  exact within.held

theorem assigns {value : σ} (h : S value) :
    Keeps S (assign value : Section σ ε Unit) fun _ => True :=
  fun _ within => ⟨⟨within.file, h⟩, fun _ _ => trivial⟩

theorem saves {conflict refused : ε} {value : σ} (h : S value) :
    Keeps S (save conflict refused value) fun _ => True := by
  intro m within
  refine ⟨?_, fun _ _ => trivial⟩
  rw [runOn, save]
  split_ifs
  · exact within
  · refine ⟨?_, h⟩
    intro stored hstored
    obtain rfl := Option.some.inj hstored
    exact h
  · exact within

theorem branch {c : Prop} [Decidable c] {x y : Section σ ε α} (yes : c → Keeps S x Q)
    (no : ¬ c → Keeps S y Q) : Keeps S (if c then x else y) Q := by
  split_ifs with h
  · exact yes h
  · exact no h

theorem forM {body : β → Section σ ε PUnit} {items : List β}
    (each : ∀ item ∈ items, Keeps S (body item) fun _ => True) :
    Keeps S (items.forM body) fun _ => True := by
  induction items with
  | nil => exact returns trivial
  | cons item rest ih =>
      refine (each item (by simp)).bind fun _ _ => ih ?_
      intro later hlater
      exact each later (by simp [hlater])

end Keeps

end Section

end AdCoder.Foundation
