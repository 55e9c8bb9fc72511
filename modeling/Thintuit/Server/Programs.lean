import Thintuit.Server.Routes

/-! The handlers as explicit programs. Each equation says once which operations a
handler issues and how it answers every reply; later arguments use these
equations and never unfold the exception handling again. -/
namespace Thintuit.Server
open Interaction
variable (rt : Runtime) (request : Request) (salt : Bytes)

def internalError (e : PyError) : Response := errorDetail 500 ("服务器内部错误: " ++ e.text)

/-- The answers of the inner `try` of registration when a statement raises. -/
def databaseError (e : PyError) : Response :=
  if e.kind = .uniqueViolationError then errorDetail 400 "该邮箱已被注册"
  else errorDetail 500 ("数据库操作失败: " ++ e.text)

def registered (i : Uuid) : Response :=
  ok (.obj [(py "success",.bool true),(py "message",.str (py "注册成功")),(py "user_id",.str (rt.uuidStr i))])

def loggedIn (r : Row) : Response :=
  ok (.obj [(py "success",.bool true),(py "message",.str (py "登录成功")),
    (py "user",.obj [(py "id",.str (rt.uuidStr r.userId)),(py "name",.str r.name),
      (py "email",.str r.email),(py "role",nullable r.role)]),
    (py "redirect_url",.str (py "/dashboard/"))])

def userInfo (r : Row) : Response :=
  ok (.obj [(py "success",.bool true),(py "user",.obj ((r.dict rt).filter (fun field => field.1 ≠ py "password")))])

def userList (rows : List ListedUser) : Response :=
  ok (.obj [(py "success",.bool true),(py "users",.arr (rows.map (ListedUser.dict rt)))])

def passwordChanged : Response := ok (.obj [(py "success",.bool true),(py "message",.str (py "密码修改成功"))])
def accountDeleted : Response := ok (.obj [(py "success",.bool true),(py "message",.str (py "账户已成功删除"))])

/-- What a registration needs before its first statement; `h` is the hash it will store. -/
structure Registering (user : UserCreate) (h : PyStr) : Prop where
  decoded : ∃ text, request.rawBody = .ok text
  length : 6 ≤ user.password.length
  hashed : hashText rt (encode user.password) salt = .ok h

theorem respond_registerUser {user : UserCreate} {h : PyStr} (hr : Registering rt request salt user h) :
    respond (registerUser direct rt request user salt) = .call .acquire (fun
      | .error e => .ret (internalError e)
      | .ok _ => .call (.fetchEmailByEmail user.email) (fun
        | .error e => .ret (databaseError e)
        | .ok (some _) => .ret (errorDetail 500 "数据库操作失败: 400: 该邮箱已被注册")
        | .ok none => .call (.insertUser user.name user.email h) (fun
          | .error e => .ret (databaseError e)
          | .ok r => .ret (registered rt r.1)))) := by
  obtain ⟨⟨text,htext⟩,hlen,hhash⟩ := hr
  unfold registerUser
  rw [htext,hhash,if_neg (by omega)]
  apply Program.call_congr
  intro r
  cases r with
  | error e => rfl
  | ok _ =>
    apply Program.call_congr
    intro r
    rcases r with ⟨k,t⟩ | (_ | _)
    · cases k <;> rfl
    · apply Program.call_congr
      intro r
      rcases r with ⟨k,t⟩ | _
      · cases k <;> rfl
      · rfl
    · rfl

section Refused
variable {request salt} {user : UserCreate}

theorem respond_registerUser_undecoded {e : PyError} (htext : request.rawBody = .error e) :
    respond (registerUser direct rt request user salt) = .ret (internalError e) := by
  unfold registerUser
  rw [htext]
  rfl

theorem respond_registerUser_short {text : PyStr} (htext : request.rawBody = .ok text) (hlen : user.password.length < 6) :
    respond (registerUser direct rt request user salt) = .ret (errorDetail 400 "密码至少需要6个字符") := by
  unfold registerUser
  rw [htext,if_pos hlen]
  rfl

theorem respond_registerUser_unhashed {text : PyStr} {e : PyError} (htext : request.rawBody = .ok text)
    (hlen : ¬ user.password.length < 6) (hhash : hashText rt (encode user.password) salt = .error e) :
    respond (registerUser direct rt request user salt) = .ret (errorDetail 500 "密码加密失败") := by
  unfold registerUser
  rw [htext,if_neg hlen,hhash]
  rfl

end Refused

/-- Otherwise registration fails before it touches the database. -/
theorem respond_registerUser_refused (user : UserCreate) (hr : ∀ h, ¬ Registering rt request salt user h) :
    ∃ resp, respond (registerUser direct rt request user salt) = .ret resp ∧ resp.success = false := by
  cases htext : request.rawBody with
  | error e => exact ⟨_,respond_registerUser_undecoded rt htext,rfl⟩
  | ok text =>
    by_cases hlen : user.password.length < 6
    · exact ⟨_,respond_registerUser_short rt htext hlen,rfl⟩
    · cases hhash : hashText rt (encode user.password) salt with
      | error e => exact ⟨_,respond_registerUser_unhashed rt htext hlen hhash,rfl⟩
      | ok h => exact absurd ⟨⟨text,htext⟩,by omega,hhash⟩ (hr h)

theorem respond_loginUser (user : UserLogin) :
    respond (loginUser direct rt user) = .call .acquire (fun
      | .error e => .ret (internalError e)
      | .ok _ => .call (.fetchByEmail user.email) (fun
        | .error e => .ret (internalError e)
        | .ok none => .ret (errorDetail 400 "邮箱未注册")
        | .ok (some dbUser) =>
          match loginUser.validPassword rt user.password dbUser.password with
          | .error e => if e.kind = .valueError then .ret (errorDetail 500 ("密码验证错误: " ++ e.text))
              else .ret (internalError e)
          | .ok false => .ret (errorDetail 400 "密码错误")
          | .ok true => .ret (loggedIn rt dbUser))) := by
  apply Program.call_congr
  intro r
  cases r with
  | error e => rfl
  | ok _ =>
    apply Program.call_congr
    intro r
    rcases r with e | (_ | dbUser)
    · rfl
    · rfl
    · simp only [Except.mapError,Program.bind,ExceptT.bindCont]
      generalize loginUser.validPassword rt user.password dbUser.password = v
      rcases v with ⟨k,t⟩ | (_ | _)
      · cases k <;> rfl
      · rfl
      · rfl

theorem respond_getUserInfo {userId : PyStr} (hu : request.userId = some userId) :
    respond (getUserInfo direct rt request) = .call .acquire (fun
      | .error e => .ret (internalError e)
      | .ok _ => .call (.fetchById userId) (fun
        | .error e => .ret (internalError e)
        | .ok none => .ret (errorDetail 404 "用户不存在")
        | .ok (some user) => .ret (userInfo rt user))) := by
  unfold getUserInfo
  simp only [hu]
  apply Program.call_congr
  intro r
  cases r with
  | error e => rfl
  | ok _ =>
    apply Program.call_congr
    intro r
    rcases r with e | (_ | user) <;> rfl

theorem respond_getUserInfo_refused (hu : request.userId = none) :
    respond (getUserInfo direct rt request) = .ret (errorDetail 401 "未授权，请重新登录") := by
  unfold getUserInfo
  rw [hu]
  rfl

theorem respond_listAllUsers {userId : PyStr} (hu : request.userId = some userId) :
    respond (listAllUsers direct rt request) = .call .acquire (fun
      | .error _ => .ret ⟨500,.text "Internal Server Error"⟩
      | .ok _ => .call (.fetchById userId) (fun
        | .error _ => .ret ⟨500,.text "Internal Server Error"⟩
        | .ok none => .ret (errorDetail 404 "用户不存在")
        | .ok (some user) =>
          if user.role ≠ some (py "admin") then .ret (errorDetail 403 "无权限访问（需要管理员）")
          else .call .acquire (fun
            | .error _ => .ret ⟨500,.text "Internal Server Error"⟩
            | .ok _ => .call .fetchUsers (fun
              | .error _ => .ret ⟨500,.text "Internal Server Error"⟩
              | .ok rows => .ret (userList rt rows))))) := by
  unfold listAllUsers adminOnly adminOnly.connected getUserById direct
  simp only [hu]
  apply Program.call_congr
  intro r
  cases r with
  | error e => rfl
  | ok _ =>
    apply Program.call_congr
    intro r
    rcases r with e | (_ | user)
    · rfl
    · rfl
    · by_cases hrole : user.role ≠ some (py "admin")
      · simp only [if_pos hrole]
        simp only [Except.mapError,Program.bind,ExceptT.bindCont,bind,ExceptT.bind,ExceptT.mk,pure,ExceptT.pure,
          if_pos hrole]
        rfl
      · simp only [if_neg hrole]
        simp only [Except.mapError,Program.bind,ExceptT.bindCont,bind,ExceptT.bind,ExceptT.mk,pure,ExceptT.pure,
          if_neg hrole]
        apply Program.call_congr
        intro r
        cases r with
        | error e => rfl
        | ok _ =>
          apply Program.call_congr
          intro r
          cases r <;> rfl

theorem respond_listAllUsers_refused (hu : request.userId = none) :
    respond (listAllUsers direct rt request) = .ret (errorDetail 401 "未提供用户ID") := by
  unfold listAllUsers adminOnly
  rw [hu]
  rfl

theorem respond_getModelAccuracy :
    respond (getModelAccuracy direct) = .call .acquire (fun
      | .error e => .ret ⟨500,.json (.obj [(py "error",.str (py "内部服务器错误")),(py "detail",.str (py e.text))])⟩
      | .ok _ => .call .fetchAccuracy (fun
        | .error e => .ret ⟨500,.json (.obj [(py "error",.str (py "内部服务器错误")),(py "detail",.str (py e.text))])⟩
        | .ok records => .ret (ok (.arr (records.map AccuracyRow.dict))))) := by
  apply Program.call_congr
  intro r
  cases r with
  | error e => rfl
  | ok _ =>
    apply Program.call_congr
    intro r
    cases r <;> rfl

/-- What a change of password needs before its first statement. -/
structure Changing (body : List (PyStr × Json)) (userId : PyStr) (currentPassword newPassword : Json) : Prop where
  userId_eq : request.userId = some userId
  current_eq : dictGet body (py "current_password") = currentPassword
  new_eq : dictGet body (py "new_password") = newPassword
  current_truthy : currentPassword.truthy = true
  new_truthy : newPassword.truthy = true
  length : ∃ n, newPassword.len = .ok n ∧ 6 ≤ n

theorem respond_changePassword {body : List (PyStr × Json)} {userId : PyStr} {currentPassword newPassword : Json}
    (hc : Changing request body userId currentPassword newPassword) :
    respond (changePassword direct rt request body salt) = .call .acquire (fun
      | .error e => .ret (internalError e)
      | .ok _ => .call (.fetchById userId) (fun
        | .error e => .ret (internalError e)
        | .ok none => .ret (errorDetail 404 "用户不存在")
        | .ok (some user) =>
          match changePassword.validPassword rt currentPassword user.password with
          | .error e => .ret (internalError e)
          | .ok false => .ret (errorDetail 400 "当前密码错误")
          | .ok true =>
            match hashText rt newPassword.encode salt with
            | .error e => .ret (internalError e)
            | .ok h => .call (.updatePassword h userId) (fun
              | .error e => .ret (internalError e)
              | .ok _ => .ret passwordChanged))) := by
  obtain ⟨hu,hcur,hnew,hct,hnt,n,hlen,hn⟩ := hc
  unfold changePassword
  simp only [hu,hcur,hnew,hct,hnt,hlen,Bool.not_true,Bool.or_self,Bool.false_eq_true,if_false]
  simp only [raising,Except.mapError,ExceptT.mk,bind,ExceptT.bind,Program.bind,ExceptT.bindCont,if_neg (Nat.not_lt.mpr hn)]
  apply Program.call_congr
  intro r
  cases r with
  | error e => rfl
  | ok _ =>
    apply Program.call_congr
    intro r
    rcases r with e | (_ | user)
    · rfl
    · rfl
    · simp only [Except.mapError,Program.bind,ExceptT.bindCont]
      generalize changePassword.validPassword rt currentPassword user.password = v
      rcases v with e | (_ | _)
      · rfl
      · rfl
      · generalize hashText rt newPassword.encode salt = w
        cases w with
        | error e => rfl
        | ok h =>
          apply Program.call_congr
          intro r
          cases r <;> rfl

section Refused
variable {request} {body : List (PyStr × Json)}

theorem respond_changePassword_anonymous (hu : request.userId = none) :
    respond (changePassword direct rt request body salt) = .ret (errorDetail 400 "缺少必要参数") := by
  unfold changePassword
  rw [hu]
  rfl

theorem respond_changePassword_incomplete {userId : PyStr} (hu : request.userId = some userId)
    (hmiss : (!(dictGet body (py "current_password")).truthy || !(dictGet body (py "new_password")).truthy) = true) :
    respond (changePassword direct rt request body salt) = .ret (errorDetail 400 "缺少必要参数") := by
  unfold changePassword
  simp only [hu,if_pos hmiss]
  rfl

theorem respond_changePassword_unsized {userId : PyStr} {e : PyError} (hu : request.userId = some userId)
    (hmiss : ¬ (!(dictGet body (py "current_password")).truthy || !(dictGet body (py "new_password")).truthy) = true)
    (hlen : (dictGet body (py "new_password")).len = .error e) :
    respond (changePassword direct rt request body salt) = .ret (internalError e) := by
  unfold changePassword
  simp only [hu,if_neg hmiss,hlen]
  rfl

theorem respond_changePassword_short {userId : PyStr} {n : Nat} (hu : request.userId = some userId)
    (hmiss : ¬ (!(dictGet body (py "current_password")).truthy || !(dictGet body (py "new_password")).truthy) = true)
    (hlen : (dictGet body (py "new_password")).len = .ok n) (hn : n < 6) :
    respond (changePassword direct rt request body salt) = .ret (errorDetail 400 "密码至少需要6个字符") := by
  unfold changePassword
  simp only [hu,if_neg hmiss,hlen,raising,Except.mapError,ExceptT.mk,bind,ExceptT.bind,Program.bind,ExceptT.bindCont,if_pos hn]
  rfl

end Refused

theorem respond_changePassword_refused (body : List (PyStr × Json))
    (hc : ∀ userId currentPassword newPassword, ¬ Changing request body userId currentPassword newPassword) :
    ∃ resp, respond (changePassword direct rt request body salt) = .ret resp ∧ resp.success = false := by
  cases hu : request.userId with
  | none => exact ⟨_,respond_changePassword_anonymous rt salt hu,rfl⟩
  | some userId =>
    by_cases hmiss : (!(dictGet body (py "current_password")).truthy || !(dictGet body (py "new_password")).truthy) = true
    · exact ⟨_,respond_changePassword_incomplete rt salt hu hmiss,rfl⟩
    · cases hlen : (dictGet body (py "new_password")).len with
      | error e => exact ⟨_,respond_changePassword_unsized rt salt hu hmiss hlen,rfl⟩
      | ok n =>
        by_cases hn : n < 6
        · exact ⟨_,respond_changePassword_short rt salt hu hmiss hlen hn,rfl⟩
        · have htruthy : (dictGet body (py "current_password")).truthy = true ∧
              (dictGet body (py "new_password")).truthy = true := by simpa using hmiss
          exact absurd ⟨hu,rfl,rfl,htruthy.1,htruthy.2,n,hlen,by omega⟩ (hc userId _ _)

theorem respond_deleteAccount {userId : PyStr} (hu : request.userId = some userId) :
    respond (deleteAccount direct request) = .call .acquire (fun
      | .error e => .ret (internalError e)
      | .ok _ => .call (.fetchEmailById userId) (fun
        | .error e => .ret (internalError e)
        | .ok none => .ret (errorDetail 404 "用户不存在")
        | .ok (some _) => .call (.deleteUser userId) (fun
          | .error e => .ret (internalError e)
          | .ok _ => .ret accountDeleted))) := by
  unfold deleteAccount
  simp only [hu]
  apply Program.call_congr
  intro r
  cases r with
  | error e => rfl
  | ok _ =>
    apply Program.call_congr
    intro r
    rcases r with e | (_ | email)
    · rfl
    · rfl
    · apply Program.call_congr
      intro r
      cases r <;> rfl

theorem respond_deleteAccount_refused (hu : request.userId = none) :
    respond (deleteAccount direct request) = .ret (errorDetail 400 "缺少用户ID") := by
  unfold deleteAccount
  rw [hu]
  rfl

end Thintuit.Server
