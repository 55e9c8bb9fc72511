import Thintuit.Server.Concurrency

/-! Roles. The INSERT of registration writes the role `normal`, no other statement writes
a role, and no request brings one in. -/
namespace Thintuit.Server
open Interaction
variable {rt : Runtime}

/-- The `user_id`s for which `admin_only` lets `/admin/users` through to the list. -/
def adminIds (rt : Runtime) (s : Store) : Set PyStr :=
  {userId | ∃ request salt c, request.endpoint = some .listAllUsers ∧ request.userId = some userId ∧
    ((serve rt request salt).run (exec rt) c s).1.success = true}

/-- A row after a statement was there before with the same role, or has just been inserted. -/
theorem exec_role {c : Choice} {s : Store} {op : DbOp} {i : Uuid} {row : Row}
    (h : (exec rt c s op).2.users.findById i = some row) :
    (∃ old, s.users.findById i = some old ∧ old.role = row.role) ∨
      (s.users.findById i = none ∧ row.role = some (py "normal")) := by
  obtain ⟨hmem,rfl⟩ := (Users.findById_eq_some_iff _ _ _).mp h
  rw [exec_rows] at hmem
  cases he : effect rt c op (exec rt c s op).1 with
  | none =>
    rw [he] at hmem
    exact .inl ⟨row,(Users.findById_eq_some_iff _ _ _).mpr ⟨hmem,rfl⟩,rfl⟩
  | insert new =>
    rw [he] at hmem
    rcases List.mem_append.mp hmem with hold | hnew
    · exact .inl ⟨row,(Users.findById_eq_some_iff _ _ _).mpr ⟨hold,rfl⟩,rfl⟩
    · obtain rfl := List.mem_singleton.mp hnew
      obtain ⟨name,email,password,-,hrow,-,hfree,-⟩ := effect_insert rt he
      exact .inr ⟨hfree,by rw [hrow]; rfl⟩
  | setPassword j password =>
    rw [he] at hmem
    obtain ⟨old,hold,rfl⟩ := List.mem_map.mp hmem
    refine .inl ⟨old,(Users.findById_eq_some_iff _ _ _).mpr ⟨hold,by simp⟩,?_⟩
    unfold Users.setPasswordRow
    split <;> rfl
  | delete j =>
    rw [he] at hmem
    exact .inl ⟨row,(Users.findById_eq_some_iff _ _ _).mpr ⟨List.mem_of_mem_filter hmem,rfl⟩,rfl⟩

/-- A fault-free request for the list under the id of an admin is answered. -/
private theorem run_listAllUsers_of_admin {request : Request} {salt : Bytes} {c : Nat → Choice} {s : Store}
    (hc : ∀ k, (c k).fault = none) (hend : request.endpoint = some .listAllUsers) {userId : PyStr} {i : Uuid} {row : Row}
    (hu : request.userId = some userId) (hi : rt.uuidParam userId = some i) (hrow : s.users.findById i = some row)
    (hrole : row.role = some (py "admin")) : ((serve rt request salt).run (exec rt) c s).1.success = true := by
  have hfetch : (exec rt (c 1) s (.fetchById userId)).1 = .ok (some row) :=
    (fetchById_ok_iff rt _ _ _ _).mpr ⟨hc 1,i,hi,hrow.symm⟩
  rw [serve_of_endpoint hend,handle,respond_listAllUsers rt request hu,Program.run_call,acquire_healthy rt (hc 0)]
  dsimp only
  rw [Program.run_call]
  simp only [Nat.zero_add,exec_fetchById_store]
  rw [hfetch]
  dsimp only
  rw [if_neg (not_not.mpr hrole),Program.run_call]
  simp only [Nat.reduceAdd]
  rw [acquire_healthy rt (hc 2)]
  dsimp only
  rw [Program.run_call]
  simp only [Nat.zero_add,Nat.reduceAdd]
  rw [fetchUsers_healthy rt (hc 3)]
  rfl

theorem mem_adminIds_iff (s : Store) (userId : PyStr) :
    userId ∈ adminIds rt s ↔ userId ≠ [] ∧ ∃ i row, rt.uuidParam userId = some i ∧ s.users.findById i = some row ∧
      row.role = some (py "admin") := by
  constructor
  · rintro ⟨request,salt,c,hend,hu,hs⟩
    obtain ⟨u,i,row,hu',hi,hrow,hrole,-⟩ := run_listAllUsers rfl hend hs
    obtain rfl : userId = u := Option.some.inj (hu.symm.trans hu')
    refine ⟨?_,i,row,hi,hrow,hrole⟩
    rintro rfl
    simp [Request.userId] at hu
  · rintro ⟨hne,i,row,hi,hrow,hrole⟩
    have hu : (⟨.get,py "/admin/users",[(py "user_id",userId)],[],none,.ok []⟩ : Request).userId = some userId := by
      simp [Request.userId,queryGet,hne]
    exact ⟨_,[],fun _ => ⟨none,0,0⟩,rfl,hu,run_listAllUsers_of_admin (fun _ => rfl) rfl hu hi hrow hrole⟩

section Runs
variable {ι : Type} [DecidableEq ι] {calls : ι → Call} {s : Store} {sched : List (ι × Option PyError)}

/-- A row after one more step of a schedule: kept with its role, or new and normal. -/
private theorem serving_role {x : ι × Option PyError} {i : Uuid} {row : Row}
    (h : (serving rt calls s (sched ++ [x])).store.users.findById i = some row) :
    (∃ old, (serving rt calls s sched).store.users.findById i = some old ∧ old.role = row.role) ∨
      ((serving rt calls s sched).store.users.findById i = none ∧ row.role = some (py "normal")) := by
  have hrun : serving rt calls s (sched ++ [x]) =
      (serving rt calls s sched).step (exec rt) x.1 ((calls x.1).choice x.2) := by
    simp [serving,schedule,Machine.run]
  rw [hrun] at h
  cases hx : (serving rt calls s sched).threads x.1 with
  | ret resp =>
    rw [Machine.step_ret (exec rt) hx] at h
    exact .inl ⟨row,h,rfl⟩
  | call op next =>
    rw [Machine.step_call (exec rt) hx] at h
    exact exec_role h

/-- While a row is there its role stays. -/
private theorem serving_role_kept {i : Uuid} {row row' : Row} (hrow : (serving rt calls s sched).store.users.findById i = some row)
    (later : List (ι × Option PyError))
    (hthere : ∀ mid, mid <+: later → ((serving rt calls s (sched ++ mid)).store.users.findById i).isSome)
    (hrow' : (serving rt calls s (sched ++ later)).store.users.findById i = some row') : row'.role = row.role := by
  induction later using List.reverseRecOn generalizing row' with
  | nil =>
    rw [List.append_nil,hrow] at hrow'
    rw [Option.some.inj hrow']
  | append_singleton later x ih =>
    have hbefore := hthere later (List.prefix_append _ _)
    rw [← List.append_assoc] at hrow'
    rcases serving_role hrow' with ⟨old,hold,hrole⟩ | ⟨hnone,-⟩
    · rw [← hrole]
      exact ih (fun mid hmid => hthere mid (hmid.trans (List.prefix_append _ _))) hold
    · rw [hnone] at hbefore
      cases hbefore

/-- A row that was missing at some moment has been inserted since. -/
private theorem serving_role_new {i : Uuid} {row : Row} (hnone : (serving rt calls s sched).store.users.findById i = none)
    (later : List (ι × Option PyError)) (hrow : (serving rt calls s (sched ++ later)).store.users.findById i = some row) :
    row.role = some (py "normal") := by
  induction later using List.reverseRecOn generalizing row with
  | nil =>
    rw [List.append_nil,hnone] at hrow
    cases hrow
  | append_singleton later x ih =>
    rw [← List.append_assoc] at hrow
    rcases serving_role hrow with ⟨old,hold,hrole⟩ | ⟨-,hrole⟩
    · rw [← hrole]
      exact ih hold
    · exact hrole

private theorem serving_admin {i : Uuid} {row : Row} (later : List (ι × Option PyError))
    (hrow : (serving rt calls s (sched ++ later)).store.users.findById i = some row) (hrole : row.role = some (py "admin")) :
    ∃ old, (serving rt calls s sched).store.users.findById i = some old ∧ old.role = some (py "admin") := by
  induction later using List.reverseRecOn generalizing row with
  | nil =>
    rw [List.append_nil] at hrow
    exact ⟨row,hrow,hrole⟩
  | append_singleton later x ih =>
    rw [← List.append_assoc] at hrow
    rcases serving_role hrow with ⟨old,hold,hsame⟩ | ⟨-,hnormal⟩
    · exact ih hold (hsame.trans hrole)
    · rw [hrole] at hnormal
      exact absurd hnormal (by decide)

end Runs

/-- No privilege is gained. Between two moments of any run, a row that is there all the time keeps
its role; a row that was missing at an earlier moment is normal; no id gains access to the list of
users. -/
theorem roles_never_gained {ι : Type} [DecidableEq ι] (rt : Runtime) (calls : ι → Call) (s : Store)
    (sched later : List (ι × Option PyError)) :
    (∀ i row row', (serving rt calls s sched).store.users.findById i = some row →
      (serving rt calls s (sched ++ later)).store.users.findById i = some row' →
      (∀ mid, mid <+: later → ((serving rt calls s (sched ++ mid)).store.users.findById i).isSome) →
      row'.role = row.role) ∧
    (∀ row ∈ (serving rt calls s (sched ++ later)).store.users.rows,
      (serving rt calls s sched).store.users.findById row.userId = none → row.role = some (py "normal")) ∧
    adminIds rt (serving rt calls s (sched ++ later)).store ⊆ adminIds rt (serving rt calls s sched).store := by
  refine ⟨?_,?_,?_⟩
  · intro i row row' hrow hrow' hthere
    exact serving_role_kept hrow later hthere hrow'
  · intro row hmem hnone
    exact serving_role_new hnone later ((Users.findById_eq_some_iff _ _ _).mpr ⟨hmem,rfl⟩)
  · intro userId hmem
    rw [mem_adminIds_iff] at hmem ⊢
    obtain ⟨hne,i,row,hi,hrow,hrole⟩ := hmem
    obtain ⟨old,hold,hadmin⟩ := serving_admin later hrow hrole
    exact ⟨hne,i,old,hi,hold,hadmin⟩

end Thintuit.Server
