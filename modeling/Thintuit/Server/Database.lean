import Thintuit.Server.Accuracy
import Thintuit.Server.Runtime

/-! The database the handlers talk to, one autocommitted statement at a time. The
users table carries its primary key and its unique email as fields, so no
statement can produce a table without them. -/
namespace Thintuit.Server

structure Row where
  userId : Uuid
  name : PyStr
  email : PyStr
  password : PyStr
  createdAt : Option Timestamp
  role : Option PyStr
  deriving DecidableEq

/-- `SELECT user_id, name, email, role, created_at`. -/
structure ListedUser where
  userId : Uuid
  name : PyStr
  email : PyStr
  role : Option PyStr
  createdAt : Option Timestamp
  deriving DecidableEq

def Row.listed (r : Row) : ListedUser := ⟨r.userId,r.name,r.email,r.role,r.createdAt⟩

/-- `user_id ... PRIMARY KEY` and `email ... UNIQUE`. -/
@[ext] structure Users where
  rows : List Row
  userIdKey : (rows.map Row.userId).Nodup
  emailKey : (rows.map Row.email).Nodup

namespace Users

def empty : Users := ⟨[],by simp,by simp⟩

def findById (t : Users) (i : Uuid) : Option Row := t.rows.find? (fun r => r.userId = i)
def findByEmail (t : Users) (email : PyStr) : Option Row := t.rows.find? (fun r => r.email = email)

/-- A conflicting INSERT raises and leaves the table alone. -/
def insert (t : Users) (rt : Runtime) (r : Row) : Except PyError Users :=
  if hi : r.userId ∈ t.rows.map Row.userId then .error (rt.fail (.duplicateUserId r.userId))
  else if he : r.email ∈ t.rows.map Row.email then .error (rt.fail (.duplicateEmail r.email))
  else .ok
    { rows := t.rows ++ [r]
      userIdKey := by
        rw [List.map_append,List.nodup_append]
        refine ⟨t.userIdKey,by simp,?_⟩
        rintro a ha b hb rfl
        have hb' : a = r.userId := by simpa using hb
        exact hi (hb' ▸ ha)
      emailKey := by
        rw [List.map_append,List.nodup_append]
        refine ⟨t.emailKey,by simp,?_⟩
        rintro a ha b hb rfl
        have hb' : a = r.email := by simpa using hb
        exact he (hb' ▸ ha) }

def setPasswordRow (i : Uuid) (password : PyStr) (r : Row) : Row :=
  if r.userId = i then { r with password := password } else r

@[simp] theorem setPasswordRow_userId (i : Uuid) (password : PyStr) (r : Row) :
    (setPasswordRow i password r).userId = r.userId := by
  unfold setPasswordRow; split <;> rfl
@[simp] theorem setPasswordRow_email (i : Uuid) (password : PyStr) (r : Row) :
    (setPasswordRow i password r).email = r.email := by
  unfold setPasswordRow; split <;> rfl

def setPassword (t : Users) (i : Uuid) (password : PyStr) : Users where
  rows := t.rows.map (setPasswordRow i password)
  userIdKey := by simpa [Function.comp_def] using t.userIdKey
  emailKey := by simpa [Function.comp_def] using t.emailKey

def delete (t : Users) (i : Uuid) : Users where
  rows := t.rows.filter (fun r => r.userId ≠ i)
  userIdKey := t.userIdKey.sublist (List.filter_sublist.map _)
  emailKey := t.emailKey.sublist (List.filter_sublist.map _)

/-- `ORDER BY created_at DESC`, where NULL sorts first. -/
def newestFirst (a b : Row) : Bool :=
  match a.createdAt, b.createdAt with
  | none, _ => true
  | some _, none => false
  | some x, some y => y ≤ x

def listing (t : Users) : List ListedUser := (t.rows.mergeSort newestFirst).map Row.listed

end Users

@[ext] structure Store where
  users : Users
  testrecordsdetails2022 : List TestRecord

/-- The statements of the handlers, and taking a connection from the pool. -/
inductive DbOp where
  | acquire
  | fetchEmailByEmail (email : PyStr)
  | insertUser (name email password : PyStr)
  | fetchByEmail (email : PyStr)
  | fetchById (userId : PyStr)
  | fetchEmailById (userId : PyStr)
  | fetchUsers
  | updatePassword (password userId : PyStr)
  | deleteUser (userId : PyStr)
  | fetchAccuracy
  deriving DecidableEq

/-- `execute` reports how many rows it changed. -/
abbrev DbOp.Result : DbOp → Type
  | .acquire => Unit
  | .fetchEmailByEmail _ => Option PyStr
  | .insertUser _ _ _ => Uuid × Timestamp
  | .fetchByEmail _ => Option Row
  | .fetchById _ => Option Row
  | .fetchEmailById _ => Option PyStr
  | .fetchUsers => List ListedUser
  | .updatePassword _ _ => Nat
  | .deleteUser _ => Nat
  | .fetchAccuracy => List AccuracyRow

abbrev DbOp.Reply (op : DbOp) : Type := Except PyError op.Result

/-- What the environment contributes to one statement: a fault, and the defaults
`gen_random_uuid()` and `CURRENT_TIMESTAMP` of an inserted row. -/
structure Choice where
  fault : Option PyError
  newId : Uuid
  now : Timestamp

variable (rt : Runtime)

/-- The statement on a healthy connection. -/
def perform (c : Choice) (s : Store) : (op : DbOp) → Except PyError (op.Result × Store)
  | .acquire => .ok ((),s)
  | .fetchEmailByEmail email => do
    rt.text email
    return ((s.users.findByEmail email).map Row.email,s)
  | .insertUser name email password => do
    rt.text name
    rt.text email
    rt.text password
    let name ← rt.varchar 100 name
    let email ← rt.varchar 255 email
    let users ← s.users.insert rt ⟨c.newId,name,email,password,some c.now,some (py "normal")⟩
    return ((c.newId,c.now),{ s with users := users })
  | .fetchByEmail email => do
    rt.text email
    return (s.users.findByEmail email,s)
  | .fetchById userId => do
    let i ← rt.uuid userId
    return (s.users.findById i,s)
  | .fetchEmailById userId => do
    let i ← rt.uuid userId
    return ((s.users.findById i).map Row.email,s)
  | .fetchUsers => .ok (s.users.listing,s)
  | .updatePassword password userId => do
    rt.text password
    let i ← rt.uuid userId
    return (s.users.rows.countP (fun r => r.userId = i),{ s with users := s.users.setPassword i password })
  | .deleteUser userId => do
    let i ← rt.uuid userId
    return (s.users.rows.countP (fun r => r.userId = i),{ s with users := s.users.delete i })
  | .fetchAccuracy => .ok (accuracyQuery rt.collate s.testrecordsdetails2022,s)

/-- A statement that raises, for whatever reason, has no effect. -/
def exec (c : Choice) (s : Store) (op : DbOp) : op.Reply × Store :=
  match c.fault with
  | some e => (.error e,s)
  | none =>
    match perform rt c s op with
    | .ok (r,s') => (.ok r,s')
    | .error e => (.error e,s)

end Thintuit.Server
