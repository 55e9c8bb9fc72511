import Thintuit.Server.Answers
import Thintuit.Server.Effects

/-! Which request issues which write. Every INSERT, UPDATE and DELETE any request
can reach is its last operation, carries the decoded arguments of the request,
and decides the answer by its reply alone. -/
namespace Thintuit.Server
open Interaction Program
variable (rt : Runtime) (request : Request) (salt : Bytes)

@[simp] theorem registered_success (i : Uuid) : (registered rt i).success = true := rfl
@[simp] theorem passwordChanged_success : passwordChanged.success = true := rfl
@[simp] theorem accountDeleted_success : accountDeleted.success = true := rfl

def insertReply : Except PyError (Uuid × Timestamp) → Response
  | .ok r => registered rt r.1
  | .error e => databaseError e

def updateReply : Except PyError Nat → Response
  | .ok _ => passwordChanged
  | .error e => internalError e

def deleteReply : Except PyError Nat → Response
  | .ok _ => accountDeleted
  | .error e => internalError e

/-- The three endpoints that write. -/
def Endpoint.writes : Endpoint → Bool
  | .registerUser | .changePassword | .deleteAccount => true
  | _ => false

/-- A write belongs to its request and answers it; any other operation leaves a
writing request without a success answer. -/
def Issues : (op : DbOp) → (op.Reply → Program DbOp DbOp.Reply Response) → Prop
  | .insertUser name email password, next =>
    ∃ user, request.registers rt = some user ∧ user.name = name ∧ user.email = email ∧
      Registering rt request salt user password ∧ ∀ r, next r = .ret (insertReply rt r)
  | .updatePassword password userId, next =>
    ∃ currentPassword newPassword, request.changes = some (userId,currentPassword,newPassword) ∧
      hashText rt newPassword.encode salt = .ok password ∧ ∀ r, next r = .ret (updateReply r)
  | .deleteUser userId, next => request.deletes = some userId ∧ ∀ r, next r = .ret (deleteReply r)
  | _, next => ∀ r resp, next r = .ret resp → resp.success = true →
      ∀ endpoint, request.endpoint = some endpoint → endpoint.writes = false

def DbOp.writes : DbOp → Bool
  | .insertUser _ _ _ | .updatePassword _ _ | .deleteUser _ => true
  | _ => false

/-- The program issues what belongs to the request, and does not succeed at once unless
the request reads only. -/
structure Quiet (p : Program DbOp DbOp.Reply Response) : Prop where
  issues : p.Everywhere (Issues rt request salt)
  answer : ∀ resp, p = .ret resp → resp.success = true →
    ∀ endpoint, request.endpoint = some endpoint → endpoint.writes = false

namespace Quiet
variable {rt request salt}

theorem refusal {resp : Response} (h : resp.success = false) : Quiet rt request salt (.ret resp) where
  issues := trivial
  answer := by
    rintro _ ⟨⟩ hs
    rw [h] at hs
    cases hs

theorem reading {endpoint : Endpoint} (h : request.endpoint = some endpoint) (hw : endpoint.writes = false)
    (resp : Response) : Quiet rt request salt (.ret resp) where
  issues := trivial
  answer := by
    intro _ _ _ e he
    obtain rfl : endpoint = e := Option.some.inj (h.symm.trans he)
    exact hw

theorem call {op : DbOp} {next : op.Reply → Program DbOp DbOp.Reply Response} (hop : op.writes = false)
    (hnext : ∀ r, Quiet rt request salt (next r)) : Quiet rt request salt (.call op next) where
  issues := by
    refine ⟨?_,fun r => (hnext r).issues⟩
    have hsilent := fun r => (hnext r).answer
    cases op with
    | insertUser name email password | updatePassword password userId | deleteUser userId => cases hop
    | _ => exact hsilent
  answer := by
    rintro _ ⟨⟩

/-- The write of a request is its last operation. -/
theorem write {op : DbOp} {next : op.Reply → Program DbOp DbOp.Reply Response} (h : Issues rt request salt op next)
    (hnext : ∀ r, ∃ resp, next r = .ret resp) : Quiet rt request salt (.call op next) where
  issues := by
    refine ⟨h,fun r => ?_⟩
    obtain ⟨resp,he⟩ := hnext r
    rw [he]
    trivial
  answer := by
    rintro _ ⟨⟩

end Quiet

private theorem registerUser_quiet (h : request.endpoint = some .registerUser) :
    Quiet rt request salt (serve rt request salt) := by
  rw [serve_of_endpoint h,handle]
  cases hu : UserCreate.validate rt request.body with
  | none => exact .refusal rfl
  | some user =>
    dsimp only
    by_cases hr : ∃ p, Registering rt request salt user p
    · obtain ⟨p,hr⟩ := hr
      rw [respond_registerUser rt request salt hr]
      refine .call rfl (fun r => ?_)
      rcases r with e | _
      · exact .refusal rfl
      refine .call rfl (fun r => ?_)
      rcases r with e | (_ | _)
      · exact .refusal (databaseError_success e)
      · refine .write ⟨user,by simp [Request.registers,h,hu],rfl,rfl,hr,?_⟩ (fun r => ?_)
        · intro r; cases r <;> rfl
        · cases r <;> exact ⟨_,rfl⟩
      · exact .refusal rfl
    · obtain ⟨resp,he,hf⟩ := respond_registerUser_refused rt request salt user (fun p hp => hr ⟨p,hp⟩)
      rw [he]
      exact .refusal hf

private theorem changePassword_quiet (h : request.endpoint = some .changePassword) :
    Quiet rt request salt (serve rt request salt) := by
  rw [serve_of_endpoint h,handle]
  split
  · rename_i body hbody
    by_cases hc : ∃ u c n, Changing request body u c n
    · obtain ⟨u,c,n,hc⟩ := hc
      rw [respond_changePassword rt request salt hc]
      refine .call rfl (fun r => ?_)
      rcases r with e | _
      · exact .refusal rfl
      refine .call rfl (fun r => ?_)
      rcases r with e | (_ | user)
      · exact .refusal rfl
      · exact .refusal rfl
      simp only
      split
      · exact .refusal rfl
      · exact .refusal rfl
      · split
        · exact .refusal rfl
        · rename_i p hp
          refine .write ⟨c,n,?_,hp,?_⟩ (fun r => ?_)
          · simp [Request.changes,h,hbody,hc.userId_eq,hc.current_eq,hc.new_eq]
          · intro r; cases r <;> rfl
          · cases r <;> exact ⟨_,rfl⟩
    · obtain ⟨resp,he,hf⟩ := respond_changePassword_refused rt request salt body (fun u c n hc' => hc ⟨u,c,n,hc'⟩)
      rw [he]
      exact .refusal hf
  · exact .refusal rfl

private theorem deleteAccount_quiet (h : request.endpoint = some .deleteAccount) :
    Quiet rt request salt (serve rt request salt) := by
  rw [serve_of_endpoint h,handle]
  cases hu : request.userId with
  | none => rw [respond_deleteAccount_refused request hu]; exact .refusal rfl
  | some userId =>
    rw [respond_deleteAccount request hu]
    refine .call rfl (fun r => ?_)
    rcases r with e | _
    · exact .refusal rfl
    refine .call rfl (fun r => ?_)
    rcases r with e | (_ | _)
    · exact .refusal rfl
    · exact .refusal rfl
    · refine .write ⟨by simp [Request.deletes,h,hu],?_⟩ (fun r => ?_)
      · intro r; cases r <;> rfl
      · cases r <;> exact ⟨_,rfl⟩

private theorem loginUser_quiet (h : request.endpoint = some .loginUser) :
    Quiet rt request salt (serve rt request salt) := by
  have hread : ∀ resp, Quiet rt request salt (.ret resp) := .reading h rfl
  rw [serve_of_endpoint h,handle]
  split
  · exact hread _
  rw [respond_loginUser]
  refine .call rfl (fun r => ?_)
  rcases r with e | _
  · exact hread _
  refine .call rfl (fun r => ?_)
  rcases r with e | (_ | dbUser)
  · exact hread _
  · exact hread _
  simp only
  split
  · split <;> exact hread _
  · exact hread _
  · exact hread _

private theorem getUserInfo_quiet (h : request.endpoint = some .getUserInfo) :
    Quiet rt request salt (serve rt request salt) := by
  rw [serve_of_endpoint h,handle]
  cases hu : request.userId with
  | none => rw [respond_getUserInfo_refused rt request hu]; exact .reading h rfl _
  | some userId =>
    rw [respond_getUserInfo rt request hu]
    refine .call rfl (fun r => ?_)
    rcases r with e | _
    · exact .reading h rfl _
    refine .call rfl (fun r => ?_)
    rcases r with e | (_ | user) <;> exact .reading h rfl _

private theorem listAllUsers_quiet (h : request.endpoint = some .listAllUsers) :
    Quiet rt request salt (serve rt request salt) := by
  rw [serve_of_endpoint h,handle]
  cases hu : request.userId with
  | none => rw [respond_listAllUsers_refused rt request hu]; exact .reading h rfl _
  | some userId =>
    rw [respond_listAllUsers rt request hu]
    refine .call rfl (fun r => ?_)
    rcases r with e | _
    · exact .reading h rfl _
    refine .call rfl (fun r => ?_)
    rcases r with e | (_ | user)
    · exact .reading h rfl _
    · exact .reading h rfl _
    simp only
    split
    · exact .reading h rfl _
    refine .call rfl (fun r => ?_)
    rcases r with e | _
    · exact .reading h rfl _
    refine .call rfl (fun r => ?_)
    cases r <;> exact .reading h rfl _

private theorem getModelAccuracy_quiet (h : request.endpoint = some .getModelAccuracy) :
    Quiet rt request salt (serve rt request salt) := by
  rw [serve_of_endpoint h,handle,respond_getModelAccuracy]
  refine .call rfl (fun r => ?_)
  rcases r with e | _
  · exact .reading h rfl _
  refine .call rfl (fun r => ?_)
  cases r <;> exact .reading h rfl _

theorem serve_quiet : Quiet rt request salt (serve rt request salt) := by
  cases h : request.endpoint with
  | none =>
    refine ⟨?_,fun resp _ _ endpoint he => by rw [h] at he; cases he⟩
    unfold Request.endpoint at h
    simp only [serve,serveOver,h]
    trivial
  | some endpoint =>
    cases endpoint with
    | registerUser => exact registerUser_quiet rt request salt h
    | loginUser => exact loginUser_quiet rt request salt h
    | getUserInfo => exact getUserInfo_quiet rt request salt h
    | listAllUsers => exact listAllUsers_quiet rt request salt h
    | getModelAccuracy => exact getModelAccuracy_quiet rt request salt h
    | changePassword => exact changePassword_quiet rt request salt h
    | deleteAccount => exact deleteAccount_quiet rt request salt h
    | serveRegisterPage | serveDashboard | serveVisualization | logoutUser | root =>
      rw [serve_of_endpoint h]
      exact .reading h rfl _

/-- Every operation of every request is accounted for. -/
theorem serve_issues : (serve rt request salt).Everywhere (Issues rt request salt) := (serve_quiet rt request salt).issues

end Thintuit.Server
