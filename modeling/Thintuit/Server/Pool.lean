import Thintuit.Interaction.Leases
import Thintuit.Server.Writes

/-! The handlers with the extent of every `async with …db_pool.acquire() as conn`. The block
takes a connection, and on every way out of it, by `return` as by an exception, the
connection goes back before the handler goes on; giving it back is awaited, and may
raise, after the statements of the block have taken effect. -/
namespace Thintuit.Server.Pool
open Interaction Leasing

/-- A connection is asked for by `acquire`, held once that has succeeded, and given back on
leaving the block, where resetting it may raise. -/
def leasing : Leasing Choice DbOp DbOp.Reply PyError where
  asks
    | .acquire => true
    | _ => false
  granted
    | _, .ok _ => true
    | _, .error _ => false
  returned c := c.fault.elim (.ok ()) .error

abbrev Conversation (α : Type) := Program (Leased DbOp) (Leased.Answer DbOp.Reply PyError) α

/-- An exception on leaving the block takes the place of what the block returned or raised. -/
def leaving {α : Type} (result : Except PyExn α) : Except PyError Unit → Except PyExn α
  | .error e => .error (.error e)
  | .ok _ => result

/-- `async with app.state.db_pool.acquire() as conn: body`. -/
def withConnection {α : Type} (body : Handler α) : HandlerOf (Leased DbOp) (Leased.Answer DbOp.Reply PyError) α :=
  ExceptT.mk (.call (.run .acquire) (fun
    | .error e => .ret (.error (.error e))
    | .ok _ => body.run.leased.bind (fun result => .call .release (fun r => .ret (leaving result r)))))

def connecting : Connecting (Leased DbOp) (Leased.Answer DbOp.Reply PyError) where
  within := withConnection

def serve (rt : Runtime) (request : Request) (salt : Bytes) : Conversation Response := serveOver connecting rt request salt

/-- What the clauses around the blocks of a handler make of an exception on leaving one. -/
def releaseError (request : Request) (e : PyError) : Response :=
  match request.endpoint with
  | some .listAllUsers => answer (.error (.error e))
  | some .getModelAccuracy =>
    ⟨500,.json (.obj [(py "error",.str (py "内部服务器错误")),(py "detail",.str (py (PyExn.error e).str))])⟩
  | _ => internalError e

theorem releaseError_success (request : Request) (e : PyError) : (releaseError request e).success = false := by
  unfold releaseError
  split <;> rfl

section Blocks
variable {α : Type} {j k : Nat} {fail : PyError → Response}

theorem realizes_withConnection {body : Handler α} {f : Except PyExn α → Conversation Response}
    {g : Except PyExn α → Program DbOp DbOp.Reply Response} (hbody : leasing.Works j body.run)
    (hnext : ∀ r, leasing.Realizes fail k false (f r) (g r)) (herror : ∀ e, f (.error (.error e)) = .ret (fail e)) :
    leasing.Realizes fail (j+(k+1)+1) false ((connecting.within body).run.bind f) ((direct.within body).run.bind g) := by
  refine .ask rfl (fun r => ?_)
  cases r with
  | error e => exact (hnext (.error (.error e))).mono (by omega)
  | ok _ =>
    change leasing.Realizes fail (j+(k+1)) true
      ((body.run.leased.bind (fun result => .call .release (fun r => .ret (leaving result r)))).bind f) (body.run.bind g)
    rw [Program.bind_assoc]
    exact Realizes.works hbody (fun r => .release (hnext r) herror)

/-- A handler that is one block with `except` clauses around it. -/
theorem realizes_tryCatch {body : Handler Response}
    {clauses : PyExn → HandlerOf (Leased DbOp) (Leased.Answer DbOp.Reply PyError) Response} {clauses' : PyExn → Handler Response}
    (hbody : leasing.Works j body.run)
    (hclauses : ∀ e, ∃ resp, respond (clauses e) = .ret resp ∧ respond (clauses' e) = .ret resp)
    (herror : ∀ e, respond (clauses (.error e)) = .ret (fail e)) :
    leasing.Realizes fail (j+2) false (respond (tryCatch (connecting.within body) clauses))
      (respond (tryCatch (direct.within body) clauses')) := by
  rw [respond,respond]
  change leasing.Realizes fail (j+(0+1)+1) false (((connecting.within body).run.bind _).bind _)
    (((direct.within body).run.bind _).bind _)
  rw [Program.bind_assoc,Program.bind_assoc]
  refine realizes_withConnection hbody (fun r => ?_) herror
  cases r with
  | ok resp => exact .ret
  | error e =>
    obtain ⟨resp,hp,hq⟩ := hclauses e
    change leasing.Realizes fail 0 false (respond (clauses e)) (respond (clauses' e))
    rw [hp,hq]
    exact .ret

theorem realizes_try {body : Handler Response} (hbody : leasing.Works j body.run) :
    leasing.Realizes internalError (j+2) false (respond (tryCatch (connecting.within body) internalServerError))
      (respond (tryCatch (direct.within body) internalServerError)) := by
  refine realizes_tryCatch hbody (fun e => ?_) (fun e => rfl)
  cases e <;> exact ⟨_,rfl,rfl⟩

end Blocks

/-! The blocks of the source: at most two statements each, and no second connection. -/

section Works
variable (rt : Runtime)

theorem registerUser_works (user : UserCreate) (hashedPassword : PyStr) :
    leasing.Works 2 (registerUser.connected rt user hashedPassword).run := by
  refine ⟨rfl,fun r => ?_⟩
  rcases r with ⟨k,t⟩ | (_ | _)
  · cases k <;> exact trivial
  · refine ⟨rfl,fun r => ?_⟩
    rcases r with ⟨k,t⟩ | _
    · cases k <;> exact trivial
    · exact trivial
  · exact trivial

theorem loginUser_works (user : UserLogin) : leasing.Works 1 (loginUser.connected rt user).run := by
  refine ⟨rfl,fun r => ?_⟩
  rcases r with e | (_ | dbUser)
  · exact trivial
  · exact trivial
  · simp only [Except.mapError,Program.bind,ExceptT.bindCont]
    generalize loginUser.validPassword rt user.password dbUser.password = v
    rcases v with ⟨k,t⟩ | (_ | _)
    · cases k <;> exact trivial
    · exact trivial
    · exact trivial

theorem getUserInfo_works (userId : PyStr) : leasing.Works 1 (getUserInfo.connected rt userId).run := by
  refine ⟨rfl,fun r => ?_⟩
  rcases r with e | (_ | user) <;> exact trivial

theorem adminOnly_works (userId : PyStr) : leasing.Works 1 (adminOnly.connected userId).run := by
  refine ⟨rfl,fun r => ?_⟩
  rcases r with e | (_ | user)
  · exact trivial
  · exact trivial
  · by_cases hrole : user.role ≠ some (py "admin")
    · simp only [Except.mapError,Program.bind,ExceptT.bindCont,ExceptT.mk,pure,ExceptT.pure,if_pos hrole]
      exact trivial
    · simp only [Except.mapError,Program.bind,ExceptT.bindCont,ExceptT.mk,pure,ExceptT.pure,if_neg hrole]
      exact trivial

theorem listAllUsers_works : leasing.Works 1 (listAllUsers.connected rt).run := by
  refine ⟨rfl,fun r => ?_⟩
  cases r <;> exact trivial

theorem getModelAccuracy_works : leasing.Works 1 getModelAccuracy.connected.run := by
  refine ⟨rfl,fun r => ?_⟩
  cases r <;> exact trivial

theorem changePassword_works (userId : PyStr) (currentPassword newPassword : Json) (salt : Bytes) :
    leasing.Works 2 (changePassword.connected rt userId currentPassword newPassword salt).run := by
  refine ⟨rfl,fun r => ?_⟩
  rcases r with e | (_ | user)
  · exact trivial
  · exact trivial
  · simp only [Except.mapError,Program.bind,ExceptT.bindCont]
    generalize changePassword.validPassword rt currentPassword user.password = v
    rcases v with e | (_ | _)
    · exact trivial
    · exact trivial
    · generalize hashText rt newPassword.encode salt = w
      cases w with
      | error e => exact trivial
      | ok h =>
        refine ⟨rfl,fun r => ?_⟩
        cases r <;> exact trivial

theorem deleteAccount_works (userId : PyStr) : leasing.Works 2 (deleteAccount.connected userId).run := by
  refine ⟨rfl,fun r => ?_⟩
  rcases r with e | (_ | email)
  · exact trivial
  · exact trivial
  · refine ⟨rfl,fun r => ?_⟩
    cases r <;> exact trivial

end Works

/-! Every request against the request without the returns. -/

section Requests
variable (rt : Runtime) (request : Request) (salt : Bytes)

theorem registerUser_realizes (user : UserCreate) :
    leasing.Realizes internalError 6 false (respond (registerUser connecting rt request user salt))
      (respond (registerUser direct rt request user salt)) := by
  unfold registerUser
  cases request.rawBody with
  | error e => exact .ret
  | ok text =>
    by_cases hlen : user.password.length < 6
    · rw [if_pos hlen,if_pos hlen]
      exact .ret
    · rw [if_neg hlen,if_neg hlen]
      cases hashText rt (encode user.password) salt with
      | error e => exact .ret
      | ok h => exact (realizes_try (registerUser_works rt user h)).mono (by omega)

theorem changePassword_realizes (body : List (PyStr × Json)) :
    leasing.Realizes internalError 6 false (respond (changePassword connecting rt request body salt))
      (respond (changePassword direct rt request body salt)) := by
  unfold changePassword
  cases request.userId with
  | none => exact .ret
  | some userId =>
    generalize dictGet body (py "current_password") = currentPassword
    generalize dictGet body (py "new_password") = newPassword
    by_cases hmiss : (!currentPassword.truthy || !newPassword.truthy) = true
    · simp only [if_pos hmiss]
      exact .ret
    · simp only [if_neg hmiss]
      cases newPassword.len with
      | error e => exact .ret
      | ok n =>
        by_cases hn : n < 6
        · simp only [raising,Except.mapError,ExceptT.mk,bind,ExceptT.bind,Program.bind,ExceptT.bindCont,if_pos hn]
          exact .ret
        · simp only [raising,Except.mapError,ExceptT.mk,bind,ExceptT.bind,Program.bind,ExceptT.bindCont,if_neg hn]
          exact (realizes_try (changePassword_works rt userId currentPassword newPassword salt)).mono (by omega)

theorem listAllUsers_realizes :
    leasing.Realizes (fun e => answer (.error (.error e))) 6 false (respond (listAllUsers connecting rt request))
      (respond (listAllUsers direct rt request)) := by
  unfold listAllUsers adminOnly
  cases request.userId with
  | none => exact .ret
  | some userId =>
    rw [respond,respond]
    change leasing.Realizes _ (1+(1+(0+1)+1+1)+1) false (((connecting.within (adminOnly.connected userId)).run.bind _).bind _)
      (((direct.within (adminOnly.connected userId)).run.bind _).bind _)
    rw [Program.bind_assoc,Program.bind_assoc]
    refine realizes_withConnection (adminOnly_works userId) (fun r => ?_) (fun e => rfl)
    cases r with
    | error e => exact .ret
    | ok user =>
      exact realizes_withConnection (k := 0) (f := fun r => .ret (answer r)) (g := fun r => .ret (answer r))
        (listAllUsers_works rt) (fun r => .ret) (fun e => rfl)

theorem serve_realizes :
    leasing.Realizes (releaseError request) 6 false (serve rt request salt) (Server.serve rt request salt) := by
  unfold serve Server.serve serveOver releaseError Request.endpoint
  cases route request.method request.path with
  | none => exact .ret
  | some endpoint =>
    cases endpoint with
    | registerUser =>
      simp only [handle]
      cases UserCreate.validate rt request.body with
      | none => exact .ret
      | some user => exact registerUser_realizes rt request salt user
    | loginUser =>
      simp only [handle]
      cases UserLogin.validate rt request.body with
      | none => exact .ret
      | some user => exact (realizes_try (loginUser_works rt user)).mono (by omega)
    | getUserInfo =>
      simp only [handle]
      unfold getUserInfo
      cases request.userId with
      | none => exact .ret
      | some userId => exact (realizes_try (getUserInfo_works rt userId)).mono (by omega)
    | listAllUsers => exact listAllUsers_realizes rt request
    | getModelAccuracy =>
      exact Realizes.mono (realizes_tryCatch getModelAccuracy_works (fun e => ⟨_,rfl,rfl⟩) (fun e => rfl)) (by omega)
    | changePassword =>
      simp only [handle]
      cases request.body with
      | none => exact .ret
      | some json =>
        cases json with
        | obj body => exact changePassword_realizes rt request salt body
        | _ => exact .ret
    | deleteAccount =>
      simp only [handle]
      unfold deleteAccount
      cases request.userId with
      | none => exact .ret
      | some userId => exact (realizes_try (deleteAccount_works userId)).mono (by omega)
    | serveRegisterPage | serveDashboard | serveVisualization | logoutUser | root => exact .ret

end Requests
end Thintuit.Server.Pool
