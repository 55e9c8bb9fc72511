import Thintuit.Interaction.Program
import Thintuit.Server.Database

/-! The request handlers of `fastapi_app/main.py`, statement by statement. Every
`try` of the source is a `tryCatch` here with the same clauses in the same order, and every
`async with …db_pool.acquire() as conn` a `conn.within`, whose block is named after its
handler; logging is left out, since no logged value is read again. -/
namespace Thintuit.Server
open Interaction

variable {Op : Type} {Reply : Op → Type}

/-- Code that may raise, and that calls operations of a kind `Op`. -/
abbrev HandlerOf (Op : Type) (Reply : Op → Type) := ExceptT PyExn (Program Op Reply)

/-- What runs inside a block: statements on the connection it has been given. -/
abbrev Handler := HandlerOf DbOp DbOp.Reply

def raising {α : Type} (x : Except PyError α) : HandlerOf Op Reply α := ExceptT.mk (.ret (x.mapError .error))

def fetch (op : DbOp) : Handler op.Result := ExceptT.mk (.call op (fun r => .ret (r.mapError .error)))

/-- How `async with …db_pool.acquire() as conn` gets its block a connection. -/
structure Connecting (Op : Type) (Reply : Op → Type) where
  within : {α : Type} → Handler α → HandlerOf Op Reply α

/-- The connection is taken when the block begins; what happens on leaving it is left out. -/
def direct : Connecting DbOp DbOp.Reply where
  within body := do
    fetch .acquire
    body

inductive Content where
  | json (value : Json)
  | text (value : String)
  | file (path : String)

structure Response where
  status : Nat
  content : Content

def Response.success (r : Response) : Bool := r.status == 200

def ok (value : Json) : Response := ⟨200,.json value⟩

inductive Method where
  | get | post | delete | put | patch | head | options
  deriving DecidableEq, Repr

/-- A request as the handlers see it. `rawBody` is what decoding the raw bytes as
UTF-8 gives, and `body` what `json.loads` made of them, if anything. -/
structure Request where
  method : Method
  path : PyStr
  query : List (PyStr × PyStr)
  cookies : List (PyStr × PyStr)
  body : Option Json
  rawBody : Except PyError PyStr

structure UserCreate where
  name : PyStr
  email : PyStr
  password : PyStr
  deriving DecidableEq

structure UserLogin where
  email : PyStr
  password : PyStr
  deriving DecidableEq

variable (conn : Connecting Op Reply) (rt : Runtime)

def UserCreate.validate (body : Option Json) : Option UserCreate :=
  match body with
  | some (.obj fields) => do
    let name ← fields.lookup (py "name") >>= rt.strField
    let email ← fields.lookup (py "email") >>= rt.emailStr
    let password ← fields.lookup (py "password") >>= rt.strField
    return ⟨name,email,password⟩
  | _ => none

def UserLogin.validate (body : Option Json) : Option UserLogin :=
  match body with
  | some (.obj fields) => do
    let email ← fields.lookup (py "email") >>= rt.emailStr
    let password ← fields.lookup (py "password") >>= rt.strField
    return ⟨email,password⟩
  | _ => none

/-- The closing clauses of the handlers: `except HTTPException: raise`, then
`except Exception as e` with status 500. -/
def internalServerError {α : Type} : PyExn → HandlerOf Op Reply α
  | .http statusCode detail => throw (.http statusCode detail)
  | .error e => throw (.http 500 ("服务器内部错误: " ++ e.text))

/-- `bcrypt.hashpw(password.encode('utf-8'), bcrypt.gensalt()).decode('utf-8')`. -/
def hashText (encoded : Except PyError Bytes) (salt : Bytes) : Except PyError PyStr := do
  rt.hashpw (← encoded) salt

def registerUser.connected (user : UserCreate) (hashedPassword : PyStr) : Handler Response :=
  tryCatch (do
      let existingUser ← fetch (.fetchEmailByEmail user.email)
      if existingUser.isSome then
        throw (.http 400 "该邮箱已被注册")
      else do
        let result ← fetch (.insertUser user.name user.email hashedPassword)
        return ok (.obj [(py "success",.bool true),(py "message",.str (py "注册成功")),
          (py "user_id",.str (rt.uuidStr result.1))]))
    -- the 400 raised above is an `Exception` too, so the last clause turns it into a 500
    (fun
      | .error ⟨.uniqueViolationError,_⟩ => throw (.http 400 "该邮箱已被注册")
      | dbError => throw (.http 500 ("数据库操作失败: " ++ dbError.str)))

def registerUser (request : Request) (user : UserCreate) (salt : Bytes) : HandlerOf Op Reply Response :=
  tryCatch (do
      let _ ← raising request.rawBody
      if user.password.length < 6 then
        throw (.http 400 "密码至少需要6个字符")
      else do
        let hashedPassword ← tryCatch (raising (hashText rt (encode user.password) salt))
          (fun _ => throw (.http 500 "密码加密失败"))
        conn.within (registerUser.connected rt user hashedPassword))
    internalServerError

/-- The check both handlers write out: bcrypt first, and once it raises
`ValueError` a plain comparison with the stored text. -/
def validPassword (encoded : Except PyError Bytes) (same : Bool) (storedPassword : PyStr) : Except PyError Bool :=
  match (do rt.checkpw (← encoded) (← encode storedPassword) : Except PyError Bool) with
  | .ok valid => .ok valid
  | .error e => if e.kind = .valueError then .ok (storedPassword == py "hashed_pwd" || same) else .error e

def loginUser.validPassword (password storedPassword : PyStr) : Except PyError Bool :=
  Server.validPassword rt (encode password) (password == storedPassword) storedPassword

def changePassword.validPassword (currentPassword : Json) (storedPassword : PyStr) : Except PyError Bool :=
  Server.validPassword rt currentPassword.encode (currentPassword.eqStr storedPassword) storedPassword

/-- `dict(row)`, with each value in the JSON form the response gives it. -/
def Row.dict (r : Row) : List (PyStr × Json) :=
  [(py "user_id",.str (rt.uuidStr r.userId)),(py "name",.str r.name),(py "email",.str r.email),
    (py "password",.str r.password),
    (py "created_at",nullable (r.createdAt.map rt.isoformat)),(py "role",nullable r.role)]

def ListedUser.dict (r : ListedUser) : Json :=
  .obj [(py "user_id",.str (rt.uuidStr r.userId)),(py "name",.str r.name),(py "email",.str r.email),
    (py "role",nullable r.role),(py "created_at",nullable (r.createdAt.map rt.isoformat))]

/-- Detection of the id column: `user_id`, or else the first column with `id` in its name. -/
def loginUser.userIdField (keys : List PyStr) : PyStr :=
  if keys.contains (py "user_id") then py "user_id"
  else ((keys.filter (fun k => py "id" <:+: k.map asciiLower)).head?).getD (py "user_id")

/-- `str(db_user[key])`. -/
def Row.strAt (r : Row) (key : PyStr) : Except PyError PyStr :=
  match (r.dict rt).lookup key with
  | some (.str s) => .ok s
  | some _ => .ok (py "None")
  | none => .error ⟨.other,String.ofList (key.map (fun c => Char.ofNat c.val))⟩

def loginUser.connected (user : UserLogin) : Handler Response := do
  match ← fetch (.fetchByEmail user.email) with
  | none => throw (.http 400 "邮箱未注册")
  | some dbUser =>
    let userIdField := loginUser.userIdField ((dbUser.dict rt).map Prod.fst)
    tryCatch (do
        let valid ← raising (loginUser.validPassword rt user.password dbUser.password)
        if !valid then
          throw (.http 400 "密码错误")
        else do
          let id ← raising (dbUser.strAt rt userIdField)
          return ok (.obj [(py "success",.bool true),(py "message",.str (py "登录成功")),
            (py "user",.obj [(py "id",.str id),(py "name",.str dbUser.name),
              (py "email",.str dbUser.email),(py "role",nullable dbUser.role)]),
            (py "redirect_url",.str (py "/dashboard/"))]))
      (fun
        | .error ⟨.valueError,text⟩ => throw (.http 500 ("密码验证错误: " ++ text))
        | e => throw e)

def loginUser (user : UserLogin) : HandlerOf Op Reply Response :=
  tryCatch (conn.within (loginUser.connected rt user)) internalServerError

/-- The `user_id` of the query string, once `if not user_id` has let it through. -/
def Request.userId (request : Request) : Option PyStr :=
  (queryGet request.query (py "user_id")).filter (fun s => !s.isEmpty)

def getUserInfo.connected (userId : PyStr) : Handler Response := do
  match ← fetch (.fetchById userId) with
  | none => throw (.http 404 "用户不存在")
  | some user =>
    return ok (.obj [(py "success",.bool true),
      (py "user",.obj ((user.dict rt).filter (fun field => field.1 ≠ py "password")))])

def getUserInfo (request : Request) : HandlerOf Op Reply Response :=
  tryCatch (do
      match request.userId with
      | none => throw (.http 401 "未授权，请重新登录")
      | some userId => conn.within (getUserInfo.connected rt userId))
    internalServerError

def getUserById (userId : PyStr) : Handler Row := do
  match ← fetch (.fetchById userId) with
  | none => throw (.http 404 "用户不存在")
  | some user => return user

def adminOnly.connected (userId : PyStr) : Handler Row := do
  let user ← getUserById userId
  if user.role ≠ some (py "admin") then
    throw (.http 403 "无权限访问（需要管理员）")
  else return user

/-- The dependency has left its block when the handler enters its own. -/
def adminOnly (request : Request) : HandlerOf Op Reply Row := do
  match request.userId with
  | none => throw (.http 401 "未提供用户ID")
  | some userId => conn.within (adminOnly.connected userId)

def listAllUsers.connected : Handler Response := do
  let rows ← fetch .fetchUsers
  return ok (.obj [(py "success",.bool true),(py "users",.arr (rows.map (ListedUser.dict rt)))])

/-- Neither this handler nor its dependency has an `except` clause. -/
def listAllUsers (request : Request) : HandlerOf Op Reply Response := do
  let _ ← adminOnly conn request
  conn.within (listAllUsers.connected rt)

def getModelAccuracy.connected : Handler Response := do
  let records ← fetch .fetchAccuracy
  return ok (.arr (records.map AccuracyRow.dict))

def getModelAccuracy : HandlerOf Op Reply Response :=
  tryCatch (conn.within getModelAccuracy.connected)
    (fun e => return ⟨500,.json (.obj [(py "error",.str (py "内部服务器错误")),(py "detail",.str (py e.str))])⟩)

def logoutUser : HandlerOf Op Reply Response :=
  return ok (.obj [(py "success",.bool true),(py "message",.str (py "注销成功"))])

def changePassword.connected (userId : PyStr) (currentPassword newPassword : Json) (salt : Bytes) :
    Handler Response := do
  match ← fetch (.fetchById userId) with
  | none => throw (.http 404 "用户不存在")
  | some user =>
    let valid ← raising (changePassword.validPassword rt currentPassword user.password)
    if !valid then
      throw (.http 400 "当前密码错误")
    else do
      let hashedNewPassword ← raising (hashText rt newPassword.encode salt)
      -- neither the old hash nor the row count of the UPDATE is looked at
      let _ ← fetch (.updatePassword hashedNewPassword userId)
      return ok (.obj [(py "success",.bool true),(py "message",.str (py "密码修改成功"))])

def changePassword (request : Request) (body : List (PyStr × Json)) (salt : Bytes) : HandlerOf Op Reply Response :=
  tryCatch (do
      let currentPassword := dictGet body (py "current_password")
      let newPassword := dictGet body (py "new_password")
      match request.userId with
      | none => throw (.http 400 "缺少必要参数")
      | some userId =>
        if !currentPassword.truthy || !newPassword.truthy then
          throw (.http 400 "缺少必要参数")
        else do
          let length ← raising newPassword.len
          if length < 6 then
            throw (.http 400 "密码至少需要6个字符")
          else conn.within (changePassword.connected rt userId currentPassword newPassword salt))
    internalServerError

def deleteAccount.connected (userId : PyStr) : Handler Response := do
  let user ← fetch (.fetchEmailById userId)
  if user.isNone then
    throw (.http 404 "用户不存在")
  else do
    let _ ← fetch (.deleteUser userId)
    return ok (.obj [(py "success",.bool true),(py "message",.str (py "账户已成功删除"))])

def deleteAccount (request : Request) : HandlerOf Op Reply Response :=
  tryCatch (do
      match request.userId with
      | none => throw (.http 400 "缺少用户ID")
      | some userId => conn.within (deleteAccount.connected userId))
    internalServerError

end Thintuit.Server
