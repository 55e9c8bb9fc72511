import Mathlib

/-! `ORDER BY` and `GROUP BY` as list operations: when an ordering makes the result
independent of the order of the input, and how the groups make up the whole. -/
namespace Thintuit.Sql
variable {α κ μ : Type}

/-- A total order, given as a test. -/
structure TotalOrder (le : α → α → Bool) : Prop where
  total : ∀ a b, (le a b || le b a) = true
  trans : ∀ a b c, le a b = true → le b c = true → le a c = true
  antisymm : ∀ a b, le a b = true → le b a = true → a = b

theorem TotalOrder.refl {le : α → α → Bool} (h : TotalOrder le) (a : α) : le a a = true := by
  simpa using h.total a a

/-- NULLS LAST. -/
def nullsLast (le : α → α → Bool) : Option α → Option α → Bool
  | some a, some b => le a b
  | some _, none => true
  | none, none => true
  | none, some _ => false

theorem nullsLast_totalOrder {le : α → α → Bool} (h : TotalOrder le) : TotalOrder (nullsLast le) where
  total a b := by
    cases a with
    | none => cases b <;> rfl
    | some a =>
      cases b with
      | none => rfl
      | some b => exact h.total a b
  trans a b c hab hbc := by
    cases a with
    | none =>
      cases b with
      | none => exact hbc
      | some b => cases hab
    | some a =>
      cases c with
      | none => rfl
      | some c =>
        cases b with
        | none => cases hbc
        | some b => exact h.trans a b c hab hbc
  antisymm a b hab hba := by
    cases a with
    | none =>
      cases b with
      | none => rfl
      | some b => cases hab
    | some a =>
      cases b with
      | none => cases hba
      | some b => rw [h.antisymm a b hab hba]

section ThenBy
variable [DecidableEq κ] (f : α → κ) (le : κ → κ → Bool) (g : α → μ) (le' : μ → μ → Bool)

/-- `ORDER BY f, g`. -/
def thenBy (a b : α) : Bool := if f a = f b then le' (g a) (g b) else le (f a) (f b)

variable {f le g le'}

theorem thenBy_total (h : TotalOrder le) (h' : TotalOrder le') (a b : α) :
    (thenBy f le g le' a b || thenBy f le g le' b a) = true := by
  unfold thenBy
  by_cases hab : f a = f b
  · rw [if_pos hab,if_pos hab.symm]
    exact h'.total _ _
  · rw [if_neg hab,if_neg (Ne.symm hab)]
    exact h.total _ _

theorem le_of_thenBy (h : TotalOrder le) {a b : α} (hab : thenBy f le g le' a b = true) : le (f a) (f b) = true := by
  unfold thenBy at hab
  split at hab
  · rename_i heq
    rw [heq]
    exact h.refl _
  · exact hab

theorem thenBy_trans (h : TotalOrder le) (h' : TotalOrder le') (a b c : α) (hab : thenBy f le g le' a b = true)
    (hbc : thenBy f le g le' b c = true) : thenBy f le g le' a c = true := by
  have hfab := le_of_thenBy h hab
  have hfbc := le_of_thenBy h hbc
  by_cases hac : f a = f c
  · -- then the one in between has the same first key
    have heq : f a = f b := h.antisymm _ _ hfab (hac ▸ hfbc)
    rw [thenBy,if_pos heq] at hab
    rw [thenBy,if_pos (heq.symm.trans hac)] at hbc
    rw [thenBy,if_pos hac]
    exact h'.trans _ _ _ hab hbc
  · rw [thenBy,if_neg hac]
    exact h.trans _ _ _ hfab hfbc

/-- Both keys agree where neither comes first. -/
theorem thenBy_antisymm (h : TotalOrder le) (h' : TotalOrder le') {a b : α} (hab : thenBy f le g le' a b = true)
    (hba : thenBy f le g le' b a = true) : f a = f b ∧ g a = g b := by
  have heq : f a = f b := h.antisymm _ _ (le_of_thenBy h hab) (le_of_thenBy h hba)
  rw [thenBy,if_pos heq] at hab
  rw [thenBy,if_pos heq.symm] at hba
  exact ⟨heq,h'.antisymm _ _ hab hba⟩

end ThenBy

/-- Where the ordering tells the rows apart, the result does not depend on the order of the input. -/
theorem mergeSort_eq_of_perm {le : α → α → Bool} (htotal : ∀ a b, (le a b || le b a) = true)
    (htrans : ∀ a b c, le a b = true → le b c = true → le a c = true) {xs ys : List α} (hperm : xs.Perm ys)
    (hanti : ∀ a ∈ xs, ∀ b ∈ xs, le a b = true → le b a = true → a = b) : xs.mergeSort le = ys.mergeSort le := by
  have hsorted : (xs.mergeSort le).Perm (ys.mergeSort le) :=
    (List.mergeSort_perm xs le).trans (hperm.trans (List.mergeSort_perm ys le).symm)
  refine hsorted.eq_of_pairwise (fun a b ha hb => ?_) (List.pairwise_mergeSort htrans htotal xs)
    (List.pairwise_mergeSort htrans htotal ys)
  exact hanti a (List.mem_mergeSort.mp ha) b (hperm.mem_iff.mpr (List.mem_mergeSort.mp hb))

/-- The groups make up the whole. -/
theorem sum_groups [DecidableEq κ] (key : α → κ) (p : α → Bool) {keys : List κ} (hnodup : keys.Nodup) {xs : List α}
    (hall : ∀ x ∈ xs, key x ∈ keys) : (keys.map (fun k => xs.countP (fun x => p x && key x = k))).sum = xs.countP p := by
  induction xs with
  | nil => simp
  | cons x xs ih =>
    have hone : (keys.map (fun k => if (p x && decide (key x = k)) = true then 1 else 0)).sum = if p x = true then 1 else 0 := by
      cases p x with
      | false => simp
      | true =>
        have hcount : ∀ ks : List κ, (ks.map (fun k => if key x = k then 1 else 0)).sum = ks.count (key x) := by
          intro ks
          induction ks with
          | nil => rfl
          | cons k ks ihk =>
            rw [List.map_cons,List.sum_cons,ihk,List.count_cons]
            by_cases hk : key x = k
            · simp [hk,Nat.add_comm]
            · simp [hk,Ne.symm hk]
        simp only [Bool.true_and,decide_eq_true_eq,if_true]
        rw [hcount,List.count_eq_one_of_mem hnodup (hall x List.mem_cons_self)]
    simp only [List.countP_cons,List.sum_map_add]
    rw [ih (fun y hy => hall y (List.mem_cons_of_mem _ hy)),hone]

end Thintuit.Sql
