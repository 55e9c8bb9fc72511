import Mathlib

/-! Directories: entries under keys, with a name that no two entries share; how one
directory stands for another, and runs of a labelled system. -/
namespace Thintuit.Interaction

structure Directory (κ : Type) {α ν : Type} (name : α → ν) where
  entry : κ → Option α
  unique : ∀ {i j a b}, entry i = some a → entry j = some b → name a = name b → i = j

namespace Directory
variable {κ α ν : Type} {name : α → ν} [DecidableEq κ]

/-- No entry has the name. -/
def Free (d : Directory κ name) (x : ν) : Prop := ∀ i a, d.entry i = some a → name a ≠ x

def add (d : Directory κ name) (i : κ) (a : α) (h : d.Free (name a)) : Directory κ name where
  entry := Function.update d.entry i (some a)
  unique := by
    intro j k b c hb hc hname
    rw [Function.update_apply] at hb hc
    split at hb <;> split at hc
    · subst j k
      rfl
    · cases hb
      exact absurd hname.symm (h k c hc)
    · cases hc
      exact absurd hname (h j b hb)
    · exact d.unique hb hc hname

/-- A change that keeps the name. -/
def revise (d : Directory κ name) (i : κ) (f : α → α) (hf : ∀ a, name (f a) = name a) : Directory κ name where
  entry := Function.update d.entry i ((d.entry i).map f)
  unique := by
    have hold : ∀ {j b}, Function.update d.entry i ((d.entry i).map f) j = some b →
        ∃ b', d.entry j = some b' ∧ name b' = name b := by
      intro j b hb
      rw [Function.update_apply] at hb
      split at hb
      · subst j
        obtain ⟨b',hb',rfl⟩ := Option.map_eq_some_iff.mp hb
        exact ⟨b',hb',(hf b').symm⟩
      · exact ⟨b,hb,rfl⟩
    intro j k b c hb hc hname
    obtain ⟨b',hb',hnb⟩ := hold hb
    obtain ⟨c',hc',hnc⟩ := hold hc
    exact d.unique hb' hc' (hnb.trans (hname.trans hnc.symm))

def remove (d : Directory κ name) (i : κ) : Directory κ name where
  entry := Function.update d.entry i none
  unique := by
    intro j k b c hb hc hname
    rw [Function.update_apply] at hb hc
    split at hb <;> split at hc
    · cases hb
    · cases hb
    · cases hc
    · exact d.unique hb hc hname

end Directory

/-- Two partial maps that agree key by key still do after one key is given related values. -/
theorem rel_update {κ α β : Type} [DecidableEq κ] {R : α → β → Prop} {f : κ → Option α} {g : κ → Option β}
    (h : ∀ i, Option.Rel R (f i) (g i)) (i : κ) {x : Option α} {y : Option β} (hxy : Option.Rel R x y) (j : κ) :
    Option.Rel R (Function.update f i x j) (Function.update g i y j) := by
  rw [Function.update_apply,Function.update_apply]
  split
  · exact hxy
  · exact h j

theorem rel_some_left {α β : Type} {R : α → β → Prop} {a : α} {y : Option β} (h : Option.Rel R (some a) y) :
    ∃ b, y = some b ∧ R a b := by
  cases h with
  | some h => exact ⟨_,rfl,h⟩

theorem rel_some_right {α β : Type} {R : α → β → Prop} {x : Option α} {b : β} (h : Option.Rel R x (some b)) :
    ∃ a, x = some a ∧ R a b := by
  cases h with
  | some h => exact ⟨_,rfl,h⟩

/-- The runs of a labelled transition system. -/
inductive Traces {S L : Type} (Step : S → L → S → Prop) (s : S) : List L → S → Prop
  | nil : Traces Step s [] s
  | snoc {ls : List L} {t u : S} {l : L} : Traces Step s ls t → Step t l u → Traces Step s (ls ++ [l]) u

end Thintuit.Interaction
