import Thintuit.Server.Effects

/-! Stores that differ in the password column only, and the statements that cannot tell
them apart. -/
namespace Thintuit.Server

def Row.erase (r : Row) : Row := { r with password := [] }

@[simp] theorem Row.erase_userId (r : Row) : r.erase.userId = r.userId := rfl
@[simp] theorem Row.erase_email (r : Row) : r.erase.email = r.email := rfl

/-- The stores agree on everything but the password column. -/
structure SameButPasswords (s t : Store) : Prop where
  rows : s.users.rows.map Row.erase = t.users.rows.map Row.erase
  records : s.testrecordsdetails2022 = t.testrecordsdetails2022

namespace SameButPasswords
variable {s t : Store} (h : SameButPasswords s t)
include h

theorem userIds : s.users.rows.map Row.userId = t.users.rows.map Row.userId := by
  have := congrArg (List.map Row.userId) h.rows
  simpa [Function.comp_def] using this

theorem emails : s.users.rows.map Row.email = t.users.rows.map Row.email := by
  have := congrArg (List.map Row.email) h.rows
  simpa [Function.comp_def] using this

theorem find (p : Row → Bool) (hp : ∀ r, p r.erase = p r) :
    (s.users.rows.find? p).map Row.erase = (t.users.rows.find? p).map Row.erase := by
  have hcomp : p ∘ Row.erase = p := funext hp
  have := congrArg (List.find? p) h.rows
  rwa [List.find?_map,List.find?_map,hcomp] at this

theorem findByEmail (email : PyStr) :
    (s.users.findByEmail email).map Row.erase = (t.users.findByEmail email).map Row.erase :=
  h.find _ (fun _ => rfl)

theorem findById (i : Uuid) : (s.users.findById i).map Row.erase = (t.users.findById i).map Row.erase :=
  h.find _ (fun _ => rfl)

theorem countP_userId (i : Uuid) :
    s.users.rows.countP (fun r => r.userId = i) = t.users.rows.countP (fun r => r.userId = i) := by
  have := congrArg (List.countP (fun j => j = i)) h.userIds
  simpa only [List.countP_map,Function.comp_def] using this

theorem listing : s.users.listing = t.users.listing := by
  have hsort : ∀ rows : List Row,
      (rows.mergeSort Users.newestFirst).map Row.erase = (rows.map Row.erase).mergeSort Users.newestFirst :=
    fun rows => List.map_mergeSort (fun _ _ _ _ => rfl)
  have hlisted : ∀ u : Users, u.listing = ((u.rows.map Row.erase).mergeSort Users.newestFirst).map Row.listed := by
    intro u
    rw [← hsort,List.map_map]
    rfl
  rw [hlisted,hlisted,h.rows]

end SameButPasswords

section Statements
variable {rt : Runtime} {s t : Store}

/-- Both raise the same, or both return the same and leave stores that agree. -/
def Agreeing {β : Type} (x y : Except PyError (β × Store)) : Prop :=
  (∃ e, x = .error e ∧ y = .error e) ∨ ∃ r s' t', x = .ok (r,s') ∧ y = .ok (r,t') ∧ SameButPasswords s' t'

private theorem agreeing_bind {α β : Type} (x : Except PyError α) {f g : α → Except PyError (β × Store)}
    (h : ∀ a, Agreeing (f a) (g a)) : Agreeing (x >>= f) (x >>= g) := by
  cases x with
  | error e => exact .inl ⟨e,rfl,rfl⟩
  | ok a => exact h a

theorem exec_agreeing {c : Choice} {op : DbOp} (h : SameButPasswords s t)
    (hp : Agreeing (perform rt c s op) (perform rt c t op)) :
    (exec rt c s op).1 = (exec rt c t op).1 ∧ SameButPasswords (exec rt c s op).2 (exec rt c t op).2 := by
  unfold exec
  cases c.fault with
  | some e => exact ⟨rfl,h⟩
  | none =>
    rcases hp with ⟨e,hs,ht⟩ | ⟨r,s',t',hs,ht,h'⟩
    · rw [hs,ht]
      exact ⟨rfl,h⟩
    · rw [hs,ht]
      exact ⟨rfl,h'⟩

private theorem insert_agreeing (rt : Runtime) (h : SameButPasswords s t) (r : Row) :
    (∃ e, s.users.insert rt r = .error e ∧ t.users.insert rt r = .error e) ∨
      ∃ u v, s.users.insert rt r = .ok u ∧ t.users.insert rt r = .ok v ∧ u.rows = s.users.rows ++ [r] ∧
        v.rows = t.users.rows ++ [r] := by
  have hids := h.userIds
  have hemails := h.emails
  unfold Users.insert
  by_cases hi : r.userId ∈ s.users.rows.map Row.userId
  · rw [dif_pos hi,dif_pos (hids ▸ hi)]
    exact .inl ⟨_,rfl,rfl⟩
  have hi' : r.userId ∉ t.users.rows.map Row.userId := by rwa [← hids]
  rw [dif_neg hi,dif_neg hi']
  by_cases he : r.email ∈ s.users.rows.map Row.email
  · rw [dif_pos he,dif_pos (hemails ▸ he)]
    exact .inl ⟨_,rfl,rfl⟩
  have he' : r.email ∉ t.users.rows.map Row.email := by rwa [← hemails]
  rw [dif_neg he,dif_neg he']
  exact .inr ⟨_,_,rfl,rfl,rfl,rfl⟩

private theorem insertUser_agreeing (h : SameButPasswords s t) (c : Choice) (name email password : PyStr) :
    Agreeing (perform rt c s (.insertUser name email password)) (perform rt c t (.insertUser name email password)) := by
  refine agreeing_bind _ (fun _ => agreeing_bind _ (fun _ => agreeing_bind _ (fun _ => agreeing_bind _ (fun keptName =>
    agreeing_bind _ (fun keptEmail => ?_)))))
  rcases insert_agreeing rt h ⟨c.newId,keptName,keptEmail,password,some c.now,some (py "normal")⟩ with
    ⟨e,hs,ht⟩ | ⟨u,v,hs,ht,hu,hv⟩
  · rw [hs,ht]
    exact .inl ⟨e,rfl,rfl⟩
  · rw [hs,ht]
    refine .inr ⟨_,_,_,rfl,rfl,?_,h.records⟩
    rw [hu,hv,List.map_append,List.map_append,h.rows]

private theorem erase_setPasswordRow (i : Uuid) (password : PyStr) (r : Row) :
    (Users.setPasswordRow i password r).erase = r.erase := by
  unfold Users.setPasswordRow
  split <;> rfl

private theorem updatePassword_agreeing (h : SameButPasswords s t) (c : Choice) (password userId : PyStr) :
    Agreeing (perform rt c s (.updatePassword password userId)) (perform rt c t (.updatePassword password userId)) := by
  refine agreeing_bind _ (fun _ => agreeing_bind _ (fun i => ?_))
  refine .inr ⟨_,_,{ t with users := t.users.setPassword i password },rfl,by rw [h.countP_userId]; rfl,?_,h.records⟩
  have hset : ∀ u : Users, (u.setPassword i password).rows.map Row.erase = u.rows.map Row.erase := by
    intro u
    simp [Users.setPassword,Function.comp_def,erase_setPasswordRow]
  exact (hset s.users).trans (h.rows.trans (hset t.users).symm)

private theorem deleteUser_agreeing (h : SameButPasswords s t) (c : Choice) (userId : PyStr) :
    Agreeing (perform rt c s (.deleteUser userId)) (perform rt c t (.deleteUser userId)) := by
  refine agreeing_bind _ (fun i => ?_)
  refine .inr ⟨_,_,{ t with users := t.users.delete i },rfl,by rw [h.countP_userId]; rfl,?_,h.records⟩
  have hdel : ∀ u : Users, (u.delete i).rows.map Row.erase = (u.rows.map Row.erase).filter (fun r => r.userId ≠ i) := by
    intro u
    rw [List.filter_map]
    rfl
  exact (hdel s.users).trans ((congrArg _ h.rows).trans (hdel t.users).symm)

private theorem email_of_erase {x y : Option Row} (h : x.map Row.erase = y.map Row.erase) :
    x.map Row.email = y.map Row.email := by
  have := congrArg (Option.map Row.email) h
  simpa [Function.comp_def] using this

/-- Statements that do not fetch a whole row. -/
def DbOp.rowless : DbOp → Bool
  | .fetchByEmail _ | .fetchById _ => false
  | _ => true

theorem exec_same (h : SameButPasswords s t) (c : Choice) {op : DbOp} (hop : op.rowless = true) :
    (exec rt c s op).1 = (exec rt c t op).1 ∧ SameButPasswords (exec rt c s op).2 (exec rt c t op).2 := by
  apply exec_agreeing h
  cases op with
  | acquire => exact .inr ⟨_,_,_,rfl,rfl,h⟩
  | fetchEmailByEmail email =>
    refine agreeing_bind _ (fun _ => .inr ⟨_,_,_,rfl,?_,h⟩)
    rw [email_of_erase (h.findByEmail email)]
    rfl
  | insertUser name email password => exact insertUser_agreeing h c name email password
  | fetchEmailById userId =>
    refine agreeing_bind _ (fun i => .inr ⟨_,_,_,rfl,?_,h⟩)
    rw [email_of_erase (h.findById i)]
    rfl
  | fetchUsers => exact .inr ⟨_,_,_,rfl,by rw [perform,h.listing],h⟩
  | updatePassword password userId => exact updatePassword_agreeing h c password userId
  | deleteUser userId => exact deleteUser_agreeing h c userId
  | fetchAccuracy => exact .inr ⟨_,_,_,rfl,by rw [perform,h.records],h⟩
  | fetchByEmail email | fetchById userId => cases hop

/-- The replies to a statement that fetches a whole row, up to its password. -/
inductive SameRow : Except PyError (Option Row) → Except PyError (Option Row) → Prop
  | error (e : PyError) : SameRow (.error e) (.error e)
  | missing : SameRow (.ok none) (.ok none)
  | found {r₁ r₂ : Row} (h : r₁.erase = r₂.erase) : SameRow (.ok (some r₁)) (.ok (some r₂))

private theorem sameRow_of_erase {x y : Option Row} (h : x.map Row.erase = y.map Row.erase) : SameRow (.ok x) (.ok y) := by
  cases x with
  | none =>
    obtain rfl : y = none := by simpa using h.symm
    exact .missing
  | some r =>
    obtain ⟨r',rfl,he⟩ := Option.map_eq_some_iff.mp h.symm
    exact .found he.symm

theorem exec_fetchByEmail_sameRow (rt : Runtime) (h : SameButPasswords s t) (c : Choice) (email : PyStr) :
    SameRow (exec rt c s (.fetchByEmail email)).1 (exec rt c t (.fetchByEmail email)).1 := by
  simp only [exec,perform]
  cases c.fault with
  | some e => exact .error e
  | none =>
    cases rt.text email with
    | error e => exact .error e
    | ok _ => exact sameRow_of_erase (h.findByEmail email)

theorem exec_fetchById_sameRow (rt : Runtime) (h : SameButPasswords s t) (c : Choice) (userId : PyStr) :
    SameRow (exec rt c s (.fetchById userId)).1 (exec rt c t (.fetchById userId)).1 := by
  simp only [exec,perform]
  cases c.fault with
  | some e => exact .error e
  | none =>
    cases rt.uuid userId with
    | error e => exact .error e
    | ok i => exact sameRow_of_erase (h.findById i)

end Statements
end Thintuit.Server
