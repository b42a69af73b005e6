/-!
# Services that answer calls

A service answers one call at a time and moves to a next state. Two services
related by a simulation give the same answers to every sequence of calls.
-/

namespace AdCoder.Foundation

/-- One call: the answer and the next state. -/
abbrev Service (ι ω σ : Type) := σ → ι → ω × σ

namespace Service

variable {ι ω σ τ : Type}

/-- The answers to a sequence of calls. -/
def answers (service : Service ι ω σ) : σ → List ι → List ω
  | _, [] => []
  | s, call :: rest => (service s call).1 :: answers service (service s call).2 rest

/-- The state after a sequence of calls. -/
def final (service : Service ι ω σ) : σ → List ι → σ
  | s, [] => s
  | s, call :: rest => final service (service s call).2 rest

/-- Related states answer alike and stay related. -/
def Simulates (service : Service ι ω σ) (spec : Service ι ω τ) (related : σ → τ → Prop) : Prop :=
  ∀ s t call, related s t →
    (service s call).1 = (spec t call).1 ∧ related (service s call).2 (spec t call).2

theorem Simulates.run {service : Service ι ω σ} {spec : Service ι ω τ} {related : σ → τ → Prop}
    (h : Simulates service spec related) {s : σ} {t : τ} (start : related s t) (calls : List ι) :
    answers service s calls = answers spec t calls ∧
      related (final service s calls) (final spec t calls) := by
  induction calls generalizing s t with
  | nil => exact ⟨rfl, start⟩
  | cons call rest ih =>
      obtain ⟨answer, next⟩ := h s t call start
      obtain ⟨tail, last⟩ := ih next
      constructor
      · rw [answers, answers, answer, tail]
      · exact last

end Service

end AdCoder.Foundation
