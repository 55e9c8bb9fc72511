import Thintuit.Server.Concurrency

/-! Change-password and delete-account check in one statement and write in a later
one, keyed on the id alone. In between a request is pending on its write. -/
namespace Thintuit.Server
open Interaction
variable (rt : Runtime)

/-- The id a request is about to UPDATE, its check being done. -/
def pendingUpdate : Program DbOp DbOp.Reply Response → Option Uuid
  | .call (.updatePassword _ userId) _ => rt.uuidParam userId
  | _ => none

def pendingDelete : Program DbOp DbOp.Reply Response → Option Uuid
  | .call (.deleteUser userId) _ => rt.uuidParam userId
  | _ => none

variable {rt}

theorem pendingUpdate_iff (p : Program DbOp DbOp.Reply Response) (i : Uuid) :
    pendingUpdate rt p = some i ↔
      ∃ password userId next, p = .call (.updatePassword password userId) next ∧ rt.uuidParam userId = some i := by
  constructor
  · intro h
    unfold pendingUpdate at h
    split at h
    · exact ⟨_,_,_,rfl,h⟩
    · cases h
  · rintro ⟨password,userId,next,rfl,h⟩
    exact h

theorem pendingDelete_iff (p : Program DbOp DbOp.Reply Response) (i : Uuid) :
    pendingDelete rt p = some i ↔
      ∃ userId next, p = .call (.deleteUser userId) next ∧ rt.uuidParam userId = some i := by
  constructor
  · intro h
    unfold pendingDelete at h
    split at h
    · exact ⟨_,_,rfl,h⟩
    · cases h
  · rintro ⟨userId,next,rfl,h⟩
    exact h

section Steps
variable {request : Request} {salt : Bytes} {es : List (Exchange DbOp DbOp.Reply)} {i : Uuid}

private theorem last_of_two {α : Type} {l : List α} {x a b : α} (h : l ++ [x] = [a,b]) : l = [a] ∧ x = b :=
  List.append_singleton_inj.mp (show l ++ [x] = [a] ++ [b] from h)

/-- A step that leaves a request pending on an UPDATE was its SELECT, and the row it
read is the one stored. -/
theorem update_established {op : DbOp} {next : op.Reply → Program DbOp DbOp.Reply Response} {c : Choice}
    {t : Store} (hp : Program.Path (serve rt request salt) es (.call op next))
    (hi : pendingUpdate rt (next (exec rt c t op).1) = some i) :
    ∃ userId row, es = [⟨.acquire,.ok ()⟩] ∧
      (⟨op,(exec rt c t op).1⟩ : Exchange DbOp DbOp.Reply) = ⟨.fetchById userId,.ok (some row)⟩ ∧
      (exec rt c t op).2.users.findById i = some row := by
  obtain ⟨password,userId,next',hnext,hid⟩ := (pendingUpdate_iff _ _).mp hi
  have hp' := hp.snoc (exec rt c t op).1
  rw [hnext] at hp'
  obtain ⟨cur,new,hc,-⟩ := ((serve_issues rt request salt).path hp').1
  obtain ⟨row,hes⟩ := updatePassword_pending ((changes_iff _ _ _).mp hc).1 hp'
  obtain ⟨hes,hx⟩ := last_of_two hes
  refine ⟨userId,row,hes,hx,?_⟩
  obtain ⟨rfl,hr⟩ := Exchange.mk.inj hx
  obtain ⟨-,j,hj,hrow⟩ := (fetchById_ok_iff rt _ _ _ _).mp (eq_of_heq hr)
  obtain rfl : j = i := Option.some.inj (hj.symm.trans hid)
  rw [exec_fetchById_store]
  exact hrow.symm

theorem delete_established {op : DbOp} {next : op.Reply → Program DbOp DbOp.Reply Response} {c : Choice}
    {t : Store} (hp : Program.Path (serve rt request salt) es (.call op next))
    (hi : pendingDelete rt (next (exec rt c t op).1) = some i) :
    ∃ row, (exec rt c t op).2.users.findById i = some row := by
  obtain ⟨userId,next',hnext,hid⟩ := (pendingDelete_iff _ _).mp hi
  have hp' := hp.snoc (exec rt c t op).1
  rw [hnext] at hp'
  obtain ⟨email,hes⟩ := deleteUser_pending ((serve_issues rt request salt).path hp').1.1 hp'
  obtain ⟨-,hx⟩ := last_of_two hes
  obtain ⟨rfl,hr⟩ := Exchange.mk.inj hx
  obtain ⟨-,j,hj,hrow⟩ := (fetchEmailById_ok_iff rt _ _ _ _).mp (eq_of_heq hr)
  obtain rfl : j = i := Option.some.inj (hj.symm.trans hid)
  obtain ⟨row,hrow,-⟩ := Option.map_eq_some_iff.mp hrow.symm
  rw [exec_fetchEmailById_store]
  exact ⟨row,hrow⟩

/-- No request starts with a write. -/
theorem not_pendingUpdate_start : pendingUpdate rt (serve rt request salt) ≠ some i := by
  intro h
  obtain ⟨password,userId,next,hp,-⟩ := (pendingUpdate_iff _ _).mp h
  have hissue := serve_issues rt request salt
  rw [hp] at hissue
  obtain ⟨cur,new,hc,-⟩ := hissue.1
  obtain ⟨row,hes⟩ := updatePassword_pending ((changes_iff _ _ _).mp hc).1 (by rw [← hp]; exact .refl _)
  cases hes

theorem not_pendingDelete_start : pendingDelete rt (serve rt request salt) ≠ some i := by
  intro h
  obtain ⟨userId,next,hp,-⟩ := (pendingDelete_iff _ _).mp h
  have hissue := serve_issues rt request salt
  rw [hp] at hissue
  obtain ⟨email,hes⟩ := deleteUser_pending hissue.1.1 (by rw [← hp]; exact .refl _)
  cases hes

end Steps

end Thintuit.Server
