import Thintuit.Interaction.History

/-! Two programs run side by side on two stores, with the same choices of the
environment. In lockstep they issue the same operations and end with the same value,
as long as what is released of the replies is the same on both sides. -/
namespace Thintuit.Interaction
variable {C σ Op α β : Type} {Reply : Op → Type} {exec : C → σ → (op : Op) → Reply op × σ} {R : σ → σ → Prop}
  {release : Exchange Op Reply → Option β}

/-- What an execution releases of its replies, in order. -/
def Program.released (exec : C → σ → (op : Op) → Reply op × σ) (release : Exchange Op Reply → Option β)
    (p : Program Op Reply α) (c : Nat → C) (s : σ) : List β :=
  ((p.trace exec c s).map (Event.exchange exec)).filterMap release

/-- The programs stay in step from these stores on, and leave stores related by `R`.
After each operation this is asked only for replies that release the same. -/
inductive Lockstep (exec : C → σ → (op : Op) → Reply op × σ) (R : σ → σ → Prop) (release : Exchange Op Reply → Option β) :
    Program Op Reply α → Program Op Reply α → σ → σ → Prop
  | ret {a s t} : R s t → Lockstep exec R release (.ret a) (.ret a) s t
  | call {op f g s t} :
      (∀ c, (release ⟨op,(exec c s op).1⟩).isSome = (release ⟨op,(exec c t op).1⟩).isSome) →
      (∀ c, release ⟨op,(exec c s op).1⟩ = release ⟨op,(exec c t op).1⟩ →
        Lockstep exec R release (f (exec c s op).1) (g (exec c t op).1) (exec c s op).2 (exec c t op).2) →
      Lockstep exec R release (.call op f) (.call op g) s t

private theorem filterMap_cons_inj {γ : Type} {f : γ → Option β} {x y : γ} {xs ys : List γ}
    (hsome : (f x).isSome = (f y).isSome) (h : (x :: xs).filterMap f = (y :: ys).filterMap f) :
    f x = f y ∧ xs.filterMap f = ys.filterMap f := by
  cases hx : f x with
  | none =>
    have hy : f y = none := by simpa [hx] using hsome.symm
    rw [List.filterMap_cons_none hx,List.filterMap_cons_none hy] at h
    exact ⟨hy.symm,h⟩
  | some b =>
    obtain ⟨b',hy⟩ := Option.isSome_iff_exists.mp (hsome.symm.trans (by rw [hx]; rfl))
    rw [List.filterMap_cons_some hx,List.filterMap_cons_some hy] at h
    obtain ⟨rfl,ht⟩ := List.cons.inj h
    exact ⟨hy.symm,ht⟩

/-- Equal releases give equal results and related stores. -/
theorem Lockstep.run {p q : Program Op Reply α} {s t : σ} (h : Lockstep exec R release p q s t) (c : Nat → C)
    (hrel : p.released exec release c s = q.released exec release c t) :
    (p.run exec c s).1 = (q.run exec c t).1 ∧ R (p.run exec c s).2 (q.run exec c t).2 := by
  induction h generalizing c with
  | ret hR => exact ⟨rfl,hR⟩
  | call hsome _ ih =>
    obtain ⟨hhead,htail⟩ := filterMap_cons_inj (hsome (c 0)) hrel
    exact ih (c 0) hhead (fun k => c (k+1)) htail

/-- An operation whose reply and effect respect the relation keeps the programs in step. -/
theorem Lockstep.call_same {op : Op} {f g : Reply op → Program Op Reply α} {s t : σ}
    (hexec : ∀ c, (exec c s op).1 = (exec c t op).1 ∧ R (exec c s op).2 (exec c t op).2)
    (hnext : ∀ r s' t', R s' t' → Lockstep exec R release (f r) (g r) s' t') :
    Lockstep exec R release (.call op f) (.call op g) s t := by
  refine .call (fun c => ?_) (fun c _ => ?_)
  · rw [(hexec c).1]
  · rw [(hexec c).1]
    exact hnext _ _ _ (hexec c).2

end Thintuit.Interaction
