import Mathlib

/-! A keyed store under a run of actions, each a script of assignments and removals.
What a lookup finds afterwards is decided by the last action that touched the key. -/
namespace Thintuit.KeyValue
variable {α κ β : Type} [DecidableEq κ]

inductive Command (κ β : Type) where
  | setItem (key : κ) (value : β)
  | removeItem (key : κ)

namespace Command

def apply (s : κ → Option β) : Command κ β → κ → Option β
  | .setItem key value => Function.update s key (some value)
  | .removeItem key => Function.update s key none

/-- What a command leaves under a key, if it touches it. -/
def leaves (k : κ) : Command κ β → Option (Option β)
  | .setItem key value => if key = k then some (some value) else none
  | .removeItem key => if key = k then some none else none

theorem apply_eq (s : κ → Option β) (c : Command κ β) (k : κ) : c.apply s k = (c.leaves k).getD (s k) := by
  cases c with
  | setItem key value =>
    by_cases h : key = k
    · subst h; simp [apply,leaves]
    · simp [apply,leaves,h,Function.update_of_ne (Ne.symm h)]
  | removeItem key =>
    by_cases h : key = k
    · subst h; simp [apply,leaves]
    · simp [apply,leaves,h,Function.update_of_ne (Ne.symm h)]

end Command

def execute (script : List (Command κ β)) (s : κ → Option β) : κ → Option β := script.foldl Command.apply s

/-- What a script leaves under a key: the last of its commands on the key decides. -/
def leaves (k : κ) : List (Command κ β) → Option (Option β)
  | [] => none
  | c :: script => (leaves k script).or (c.leaves k)

theorem execute_eq (script : List (Command κ β)) (s : κ → Option β) (k : κ) :
    execute script s k = (leaves k script).getD (s k) := by
  induction script generalizing s with
  | nil => rfl
  | cons c script ih =>
    have hstep : execute (c :: script) s = execute script (c.apply s) := rfl
    rw [hstep,ih,Command.apply_eq,leaves]
    cases leaves k script <;> rfl

/-- Every `p` of a run is followed by a `q`. -/
def followed (p q : α → Bool) : List α → Bool
  | [] => true
  | x :: xs => (!p x || xs.any q) && followed p q xs

theorem followed_snoc (p q : α → Bool) (xs : List α) (a : α) :
    followed p q (xs ++ [a]) = (!p a && (q a || followed p q xs)) := by
  induction xs with
  | nil => simp [followed]
  | cons x xs ih =>
    rw [List.cons_append,followed,ih,followed,List.any_append,List.any_cons,List.any_nil,Bool.or_false]
    cases p a <;> cases q a <;> cases p x <;> simp

theorem followed_mono {p p' : α → Bool} (q : α → Bool) (hp : ∀ a, p a = true → p' a = true) {xs : List α}
    (h : followed p' q xs = true) : followed p q xs = true := by
  induction xs with
  | nil => rfl
  | cons x xs ih =>
    rw [followed,Bool.and_eq_true,Bool.or_eq_true,Bool.not_eq_true'] at h ⊢
    refine ⟨?_,ih h.2⟩
    cases hx : p x with
    | false => exact .inl rfl
    | true =>
      rw [hp x hx] at h
      exact .inr (h.1.resolve_left (by simp))

/-- Where nothing qualifies as an end, nothing may qualify as a beginning. -/
theorem followed_never (p : α → Bool) (xs : List α) : followed p (fun _ => false) xs = xs.all (fun a => !p a) := by
  induction xs with
  | nil => rfl
  | cons x xs ih =>
    have hnone : xs.any (fun _ => false) = false := by simp
    rw [followed,ih,hnone,Bool.or_false,List.all_cons]

/-- The store after a run of actions, from an empty one. -/
def replay (script : α → List (Command κ β)) (run : List α) : κ → Option β :=
  run.foldl (fun s a => execute (script a) s) (fun _ => none)

section Replay
variable (script : α → List (Command κ β)) (k : κ)

theorem replay_append (xs ys : List α) :
    replay script (xs ++ ys) = ys.foldl (fun s a => execute (script a) s) (replay script xs) := List.foldl_append

theorem replay_snoc (xs : List α) (a : α) :
    replay script (xs ++ [a]) k = (leaves k (script a)).getD (replay script xs k) := by
  rw [replay_append]
  exact execute_eq (script a) _ k

def assigns (a : α) : Bool := (leaves k (script a)).any Option.isSome
def removes (a : α) : Bool := (leaves k (script a)).any Option.isNone

theorem leaves_eq_none_iff (a : α) :
    leaves k (script a) = none ↔ assigns script k a = false ∧ removes script k a = false := by
  rw [assigns,removes]
  rcases leaves k (script a) with _ | _ | v <;> simp

/-- A key is absent exactly when every assignment to it was followed by a removal. -/
theorem replay_eq_none_iff (run : List α) :
    replay script run k = none ↔ followed (assigns script k) (removes script k) run = true := by
  induction run using List.reverseRecOn with
  | nil => simp [replay,followed]
  | append_singleton run a ih =>
    rw [replay_snoc,followed_snoc,assigns,removes]
    rcases leaves k (script a) with _ | _ | v
    · simpa using ih
    · simp
    · simp

/-- A value under a key is the one of the last action that touched the key. -/
theorem replay_eq_some_iff (run : List α) (v : β) :
    replay script run k = some v ↔ ∃ xs a ys, run = xs ++ a :: ys ∧ leaves k (script a) = some (some v) ∧
      ∀ b ∈ ys, leaves k (script b) = none := by
  induction run using List.reverseRecOn with
  | nil => simp [replay]
  | append_singleton run a ih =>
    rw [replay_snoc]
    constructor
    · intro h
      cases ha : leaves k (script a) with
      | some x =>
        rw [ha] at h
        exact ⟨run,a,[],rfl,by rw [ha]; exact congrArg some h,by simp⟩
      | none =>
        rw [ha] at h
        obtain ⟨xs,b,ys,rfl,hb,hys⟩ := ih.mp h
        refine ⟨xs,b,ys ++ [a],by simp,hb,fun c hc => ?_⟩
        rcases List.mem_append.mp hc with hc | hc
        · exact hys c hc
        · rwa [List.mem_singleton.mp hc]
    · rintro ⟨xs,b,ys,hrun,hb,hys⟩
      rcases List.eq_nil_or_concat ys with rfl | ⟨ys,c,rfl⟩
      · obtain ⟨-,hlast⟩ := List.append_inj' hrun rfl
        obtain rfl : a = b := by simpa using hlast
        rw [hb]
        rfl
      · rw [List.concat_eq_append,← List.cons_append,← List.append_assoc] at hrun
        obtain ⟨rfl,hlast⟩ := List.append_inj' hrun rfl
        obtain rfl : a = c := by simpa using hlast
        rw [hys a (by simp)]
        exact ih.mpr ⟨xs,b,ys,rfl,hb,fun x hx => hys x (by simp [hx])⟩

/-- Actions that leave a key alone can be dropped from the end of a run. -/
theorem replay_frame (xs : List α) {ys : List α} (h : ∀ a ∈ ys, leaves k (script a) = none) :
    replay script (xs ++ ys) k = replay script xs k := by
  induction ys using List.reverseRecOn with
  | nil => rw [List.append_nil]
  | append_singleton ys a ih =>
    rw [← List.append_assoc,replay_snoc,h a (by simp)]
    exact ih (fun b hb => h b (by simp [hb]))

end Replay
end Thintuit.KeyValue
