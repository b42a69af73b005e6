import Mathlib.Data.Multiset.Lattice
import Mathlib.Order.WithBot

/-!
# Unions of keyed observations

Items observe the state behind their key, a value in a join-semilattice. A list
of items stands for a function from keys to what was observed there, and a union
of lists for the join of these functions. Lists in which no key comes twice are
equal up to order when they stand for the same function.
-/

namespace AdCoder.Foundation

variable {α κ L : Type*} [DecidableEq κ] [SemilatticeSup L] {key : α → κ} {value : α → L}
  {items others third : List α} {item : α} {k : κ}

/-- What the items of one key say together. -/
def observed (key : α → κ) (value : α → L) (items : List α) (k : κ) : WithBot L :=
  Multiset.sup (((items.filter fun item => key item = k).map fun item => (value item : WithBot L) :
    List (WithBot L)) : Multiset (WithBot L))

theorem observed_nil : observed key value [] k = ⊥ := rfl

theorem observed_cons : observed key value (item :: items) k =
    (if key item = k then (value item : WithBot L) else ⊥) ⊔ observed key value items k := by
  by_cases h : key item = k
  · simp [observed, h, ← Multiset.cons_coe]
  · simp [observed, h]

theorem observed_append : observed key value (items ++ others) k =
    observed key value items k ⊔ observed key value others k := by
  simp [observed, ← Multiset.coe_add]

theorem le_observed (h : item ∈ items) :
    (value item : WithBot L) ≤ observed key value items (key item) := by
  refine Multiset.le_sup ?_
  rw [Multiset.mem_coe, List.mem_map]
  exact ⟨item, List.mem_filter.mpr ⟨h, by simp⟩, rfl⟩

theorem observed_eq_bot (h : k ∉ items.map key) : observed key value items k = ⊥ := by
  have none : (items.filter fun item => key item = k) = [] := by
    rw [List.filter_eq_nil_iff]
    intro item mem same
    exact h (List.mem_map.mpr ⟨item, mem, of_decide_eq_true same⟩)
  simp [observed, none]

/-- Where no key comes twice, an item says all that is said of its key. -/
theorem observed_of_mem (unique : (items.map key).Nodup) (h : item ∈ items) :
    observed key value items (key item) = value item := by
  induction items with
  | nil => cases h
  | cons first rest ih =>
      rw [List.map_cons, List.nodup_cons] at unique
      rw [observed_cons]
      rcases List.mem_cons.mp h with rfl | later
      · rw [if_pos rfl, observed_eq_bot unique.1, sup_bot_eq]
      · have other : key first ≠ key item := by
          intro same
          exact unique.1 (same ▸ List.mem_map_of_mem later)
        rw [if_neg other, bot_sup_eq, ih unique.2 later]

theorem mem_keys_of_observed (h : observed key value items k ≠ ⊥) : k ∈ items.map key := by
  by_contra absent
  exact h (observed_eq_bot absent)

/-- Lists that say the same hold the same items, in some order. -/
theorem perm_of_observed (injective : Function.Injective fun item => (key item, value item))
    (hitems : (items.map key).Nodup) (hothers : (others.map key).Nodup)
    (same : ∀ k, observed key value items k = observed key value others k) :
    items.Perm others := by
  have sub {l m : List α} (hl : (l.map key).Nodup) (hm : (m.map key).Nodup)
      (same : ∀ k, observed key value l k = observed key value m k) : ∀ item ∈ l, item ∈ m := by
    intro item mem
    have here : observed key value l (key item) = value item := observed_of_mem hl mem
    have observes : observed key value m (key item) ≠ ⊥ := by
      rw [← same, here]
      exact WithBot.coe_ne_bot
    have found : key item ∈ m.map key := mem_keys_of_observed observes
    obtain ⟨other, hother, hkey⟩ := List.mem_map.mp found
    have there : observed key value m (key other) = value other := observed_of_mem hm hother
    rw [hkey, ← same, here, WithBot.coe_inj] at there
    have : other = item := injective (Prod.ext hkey there.symm)
    exact this ▸ hother
  refine (List.perm_ext_iff_of_nodup hitems.of_map hothers.of_map).mpr fun item => ?_
  exact ⟨sub hitems hothers same item, sub hothers hitems (fun k => (same k).symm) item⟩

/-! ## Unions -/

/-- A union of the items: each observed key once, with all that is said of it. -/
structure Unites (key : α → κ) (value : α → L) (items union : List α) : Prop where
  unique : (union.map key).Nodup
  found : ∀ k ∈ items.map key, k ∈ union.map key
  joined : ∀ item ∈ union, observed key value items (key item) = value item

theorem Unites.observed_eq {union : List α} (unites : Unites key value items union) (k : κ) :
    observed key value union k = observed key value items k := by
  by_cases h : k ∈ union.map key
  · obtain ⟨item, mem, rfl⟩ := List.mem_map.mp h
    rw [observed_of_mem unites.unique mem, unites.joined item mem]
  · have absent : k ∉ items.map key := fun mem => h (unites.found k mem)
    rw [observed_eq_bot h, observed_eq_bot absent]

/-- What was observed of a key is below the one item of the union. -/
theorem Unites.value_le {union : List α} {joined : α} (unites : Unites key value items union)
    (h : item ∈ items) (hjoined : joined ∈ union) (same : key joined = key item) :
    value item ≤ value joined := by
  rw [← WithBot.coe_le_coe, ← unites.joined joined hjoined, same]
  exact le_observed h

section Laws

variable (injective : Function.Injective fun item => (key item, value item))
include injective

theorem Unites.comm {forth back : List α} (hforth : Unites key value (items ++ others) forth)
    (hback : Unites key value (others ++ items) back) : forth.Perm back := by
  refine perm_of_observed injective hforth.unique hback.unique fun k => ?_
  rw [hforth.observed_eq, hback.observed_eq, observed_append, observed_append, sup_comm]

theorem Unites.assoc {first last left right : List α}
    (hfirst : Unites key value (items ++ others) first)
    (hlast : Unites key value (others ++ third) last)
    (hleft : Unites key value (first ++ third) left)
    (hright : Unites key value (items ++ last) right) : left.Perm right := by
  refine perm_of_observed injective hleft.unique hright.unique fun k => ?_
  calc
    observed key value left k
        = observed key value items k ⊔ observed key value others k ⊔
            observed key value third k := by
          rw [hleft.observed_eq, observed_append, hfirst.observed_eq, observed_append]
    _ = observed key value right k := by
          rw [hright.observed_eq, observed_append, hlast.observed_eq, observed_append, sup_assoc]

theorem Unites.idem {union : List α} (unique : (items.map key).Nodup)
    (hunion : Unites key value (items ++ items) union) : union.Perm items := by
  refine perm_of_observed injective hunion.unique unique fun k => ?_
  rw [hunion.observed_eq, observed_append, sup_idem]

end Laws

end AdCoder.Foundation
