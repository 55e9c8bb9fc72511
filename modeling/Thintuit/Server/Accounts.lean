import Thintuit.Interaction.Directory
import Thintuit.Server.PasswordInForce
import Thintuit.Server.Serializable

/-! What the API is for: a directory of accounts, each with its own email and a secret.
The service below knows no table, no hash and no statement; its labels are read off the
requests and the answers. Every session of the server is a run of it. -/
namespace Thintuit.Server
open Interaction

namespace Accounts

structure Account where
  name : PyStr
  email : PyStr
  role : Option PyStr
  createdAt : Option PyStr
  secret : Bytes

/-- What is shown of an account. -/
structure Profile where
  userId : Uuid
  name : PyStr
  email : PyStr
  role : Option PyStr
  createdAt : Option PyStr
  deriving DecidableEq

def Account.profile (a : Account) (i : Uuid) : Profile := ⟨i,a.name,a.email,a.role,a.createdAt⟩

abbrev Service := Directory Uuid Account.email

def noAccounts : Service where
  entry := fun _ => none
  unique := by
    intro i j a b ha
    cases ha

/-- Of a password the service keeps the first 72 bytes. -/
def Secret (password : PyStr) (secret : Bytes) : Prop := ∃ b, encode password = .ok b ∧ b.take 72 = secret

/-- A name is kept up to its first hundred characters, where nothing but blanks is cut off. -/
def Kept (name kept : PyStr) : Prop := kept = name.take 100 ∧ ∀ c ∈ name.drop 100, c = 32

inductive Label where
  /-- A refusal, or a request that is not about accounts. -/
  | quiet
  /-- A success answer that does not say what it should. -/
  | garbled
  | registered (userId : Uuid) (name email password : PyStr)
  | signedIn (email password : PyStr) (userId : Uuid) (name shownEmail : PyStr) (role : Option PyStr)
  | shown (asked : Uuid) (profile : Profile)
  | listed (asker : Uuid) (profiles : List Profile)
  | changed (userId : Uuid) (current new : PyStr)
  | removed (userId : Uuid)
  deriving DecidableEq

inductive Step : Service → Label → Service → Prop
  | quiet {d : Service} : Step d .quiet d
  | register {d : Service} {i : Uuid} {a : Account} {name password : PyStr} (hid : d.entry i = none)
      (hfree : d.Free a.email) (hname : Kept name a.name) (hrole : a.role = some (py "normal"))
      (hsecret : Secret password a.secret) : Step d (.registered i name a.email password) (d.add i a hfree)
  | signIn {d : Service} {i : Uuid} {a : Account} {password : PyStr} (hi : d.entry i = some a)
      (hsecret : Secret password a.secret) : Step d (.signedIn a.email password i a.name a.email a.role) d
  | look {d : Service} {i : Uuid} {a : Account} (hi : d.entry i = some a) : Step d (.shown i (a.profile i)) d
  | list {d : Service} {i : Uuid} {a : Account} {profiles : List Profile} (hi : d.entry i = some a)
      (hrole : a.role = some (py "admin")) (hnodup : profiles.Nodup)
      (hall : ∀ p, p ∈ profiles ↔ ∃ j b, d.entry j = some b ∧ b.profile j = p) : Step d (.listed i profiles) d
  | change {d : Service} {i : Uuid} {a : Account} {current new : PyStr} {secret : Bytes} (hi : d.entry i = some a)
      (hcurrent : Secret current a.secret) (hnew : Secret new secret) :
      Step d (.changed i current new) (d.revise i (fun a => { a with secret := secret }) (fun _ => rfl))
  | remove {d : Service} {i : Uuid} {a : Account} (hi : d.entry i = some a) : Step d (.removed i) (d.remove i)

section Reading
variable (rt : Runtime)

def field (key : String) : Json → Json
  | .obj fields => dictGet fields (py key)
  | _ => .null

def text : Json → Option PyStr
  | .str s => some s
  | _ => none

def items : Json → List Json
  | .arr xs => xs
  | _ => []

def readId (answer : Json) : Option Uuid := (text answer).bind rt.uuidParam

def readProfile (user : Json) : Option Profile := do
  let userId ← readId rt (field "user_id" user)
  let name ← text (field "name" user)
  let email ← text (field "email" user)
  return ⟨userId,name,email,text (field "role" user),text (field "created_at" user)⟩

/-- What a successful request has shown, from the request and the JSON of its answer. -/
def readLabel (request : Request) (answer : Json) : Endpoint → Option Label
  | .registerUser => do
    let user ← request.registers rt
    let userId ← readId rt (field "user_id" answer)
    return .registered userId user.name user.email user.password
  | .loginUser => do
    let user ← request.logsIn rt
    let shown := field "user" answer
    let userId ← readId rt (field "id" shown)
    let name ← text (field "name" shown)
    let email ← text (field "email" shown)
    return .signedIn user.email user.password userId name email (text (field "role" shown))
  | .getUserInfo => do
    let asked ← request.userId.bind rt.uuidParam
    let profile ← readProfile rt (field "user" answer)
    return .shown asked profile
  | .listAllUsers => do
    let asker ← request.userId.bind rt.uuidParam
    let profiles ← (items (field "users" answer)).mapM (readProfile rt)
    return .listed asker profiles
  | .changePassword => do
    let (userId,current,new) ← request.changes
    let userId ← rt.uuidParam userId
    return .changed userId (← text current) (← text new)
  | .deleteAccount => do
    let userId ← request.deletes
    return .removed (← rt.uuidParam userId)
  | _ => some .quiet

def label (x : Request × Response) : Label :=
  if x.2.success then
    match x.1.endpoint, x.2.content with
    | some endpoint, .json answer => (readLabel rt x.1 answer endpoint).getD .garbled
    | _, _ => .quiet
  else .quiet

def listedProfile (user : ListedUser) : Profile :=
  ⟨user.userId,user.name,user.email,user.role,user.createdAt.map rt.isoformat⟩

/-- A row stands for an account when its hash is one of the secret. -/
structure Stands (row : Row) (a : Account) : Prop where
  name : a.name = row.name
  email : a.email = row.email
  role : a.role = row.role
  createdAt : a.createdAt = row.createdAt.map rt.isoformat
  storable : row.email.all Runtime.storable = true
  secret : ∃ b salt, rt.hashpw b salt = .ok row.password ∧ b.take 72 = a.secret

def Represents (s : Store) (d : Service) : Prop := ∀ i, Option.Rel (Stands rt) (s.users.findById i) (d.entry i)

end Reading
end Accounts

/-! The table as a partial map from ids to rows. -/
namespace Users

theorem findById_of_append {t t' : Users} {row : Row} (hrows : t'.rows = t.rows ++ [row]) :
    t'.findById = Function.update t.findById row.userId (some row) := by
  funext i
  rw [Function.update_apply]
  split
  · rename_i hi
    exact (findById_eq_some_iff _ _ _).mpr ⟨by simp [hrows],hi.symm⟩
  · rename_i hi
    simp [findById,hrows,Ne.symm hi]

theorem findById_setPassword (t : Users) (i : Uuid) (password : PyStr) :
    (t.setPassword i password).findById =
      Function.update t.findById i ((t.findById i).map (fun row => { row with password := password })) := by
  funext j
  have hcomp : ((fun r => decide (r.userId = j)) ∘ setPasswordRow i password) = fun r => decide (r.userId = j) := by
    funext r
    simp
  have hmap : (t.setPassword i password).findById j = (t.findById j).map (setPasswordRow i password) := by
    rw [findById,setPassword,List.find?_map,hcomp]
    rfl
  rw [hmap,Function.update_apply]
  cases hrow : t.findById j with
  | none =>
    split
    · subst j
      rw [hrow]
      rfl
    · rfl
  | some row =>
    have hid := ((findById_eq_some_iff _ _ _).mp hrow).2
    split
    · rename_i hji
      rw [← hji,hrow,Option.map_some,Option.map_some,setPasswordRow,if_pos hid]
    · rename_i hji
      rw [Option.map_some,setPasswordRow,if_neg (hid ▸ hji)]

theorem findById_delete (t : Users) (i : Uuid) : (t.delete i).findById = Function.update t.findById i none := by
  funext j
  rw [Function.update_apply]
  split
  · subst j
    rw [findById_eq_none_iff]
    intro r hr
    simpa using (List.mem_filter.mp hr).2
  · rename_i hji
    cases hrow : t.findById j with
    | none =>
      rw [findById_eq_none_iff] at hrow ⊢
      intro r hr
      exact hrow r (List.mem_of_mem_filter hr)
    | some row =>
      obtain ⟨hmem,rfl⟩ := (findById_eq_some_iff _ _ _).mp hrow
      exact (findById_eq_some_iff _ _ _).mpr ⟨List.mem_filter.mpr ⟨hmem,by simpa using hji⟩,rfl⟩

end Users

namespace Accounts
variable {rt : Runtime}

@[simp] theorem text_nullable (x : Option PyStr) : text (nullable x) = x := by
  cases x <;> rfl

theorem label_of_success {request : Request} {endpoint : Endpoint} (he : request.endpoint = some endpoint) (answer : Json) :
    label rt (request,ok answer) = (readLabel rt request answer endpoint).getD .garbled := by
  simp [label,ok,Response.success,he]

section Answers
variable (hround : UuidRoundTrip rt)
include hround

theorem readId_uuidStr (i : Uuid) : readId rt (.str (rt.uuidStr i)) = some i := hround i

theorem readProfile_listed (user : ListedUser) : readProfile rt (user.dict rt) = some (listedProfile rt user) := by
  have hread : readProfile rt (user.dict rt) = (readId rt (.str (rt.uuidStr user.userId))).bind (fun i =>
      some ⟨i,user.name,user.email,text (nullable user.role),text (nullable (user.createdAt.map rt.isoformat))⟩) := rfl
  rw [hread,readId_uuidStr hround,text_nullable,text_nullable]
  rfl

theorem readProfiles_listed (users : List ListedUser) :
    (users.map (ListedUser.dict rt)).mapM (readProfile rt) = some (users.map (listedProfile rt)) := by
  induction users with
  | nil => rfl
  | cons user users ih =>
    rw [List.map_cons,List.mapM_cons,readProfile_listed hround,ih]
    rfl

variable {request : Request}

theorem label_registered {user : UserCreate} (hu : request.registers rt = some user) (i : Uuid) :
    label rt (request,registered rt i) = .registered i user.name user.email user.password := by
  rw [registered,label_of_success ((registers_iff user).mp hu).1,readLabel,hu]
  change ((readId rt (.str (rt.uuidStr i))).bind _).getD _ = _
  rw [readId_uuidStr hround]
  rfl

theorem label_loggedIn {user : UserLogin} (hu : request.logsIn rt = some user) (row : Row) :
    label rt (request,loggedIn rt row) = .signedIn user.email user.password row.userId row.name row.email row.role := by
  rw [loggedIn,label_of_success ((logsIn_iff user).mp hu).1,readLabel,hu]
  change ((readId rt (.str (rt.uuidStr row.userId))).bind (fun i =>
    some (Label.signedIn user.email user.password i row.name row.email (text (nullable row.role))))).getD _ = _
  rw [readId_uuidStr hround,text_nullable]
  rfl

theorem label_userInfo {userId : PyStr} {i : Uuid} (he : request.endpoint = some .getUserInfo)
    (hu : request.userId = some userId) (hi : rt.uuidParam userId = some i) (row : Row) :
    label rt (request,userInfo rt row) = .shown i (listedProfile rt row.listed) := by
  rw [userInfo,label_of_success he,readLabel,hu,Option.bind_some,hi]
  change ((((readId rt (.str (rt.uuidStr row.userId))).bind (fun i => some (Profile.mk i row.name row.email
    (text (nullable row.role)) (text (nullable (row.createdAt.map rt.isoformat))))))).bind _).getD _ = _
  rw [readId_uuidStr hround,text_nullable,text_nullable]
  rfl

theorem label_userList {userId : PyStr} {i : Uuid} (he : request.endpoint = some .listAllUsers)
    (hu : request.userId = some userId) (hi : rt.uuidParam userId = some i) (users : List ListedUser) :
    label rt (request,userList rt users) = .listed i (users.map (listedProfile rt)) := by
  rw [userList,label_of_success he,readLabel,hu,Option.bind_some,hi]
  change (((users.map (ListedUser.dict rt)).mapM (readProfile rt)).bind _).getD _ = _
  rw [readProfiles_listed hround]
  rfl

end Answers

section Rows
variable {s : Store} {d : Service} (hrep : Represents rt s d)
include hrep

theorem Represents.entry_of_row {i : Uuid} {row : Row} (hrow : s.users.findById i = some row) :
    ∃ a, d.entry i = some a ∧ Stands rt row a := by
  have h := hrep i
  rw [hrow] at h
  exact rel_some_left h

theorem Represents.row_of_entry {i : Uuid} {a : Account} (ha : d.entry i = some a) :
    ∃ row, s.users.findById i = some row ∧ Stands rt row a := by
  have h := hrep i
  rw [ha] at h
  exact rel_some_right h

theorem Represents.free {email : PyStr} (h : s.users.findByEmail email = none) : d.Free email := by
  intro i a ha
  obtain ⟨row,hrow,hstands⟩ := hrep.row_of_entry ha
  rw [hstands.email]
  exact (Users.findByEmail_eq_none_iff _ _).mp h row ((Users.findById_eq_some_iff _ _ _).mp hrow).1

theorem Represents.entry_none {i : Uuid} (h : s.users.findById i = none) : d.entry i = none := by
  cases ha : d.entry i with
  | none => rfl
  | some a =>
    obtain ⟨row,hrow,-⟩ := hrep.row_of_entry ha
    rw [h] at hrow
    cases hrow

end Rows

theorem represents_empty (records : List TestRecord) : Represents rt ⟨Users.empty,records⟩ noAccounts := fun _ => .none

/-- Against the hash of a row, a password passes when it is the account's secret. -/
theorem Stands.secret_of_valid (hl : BcryptLaws rt) {row : Row} {a : Account} (ha : Stands rt row a) {password : Json}
    (hvalid : changePassword.validPassword rt password row.password = .ok true) :
    ∃ p, password = .str p ∧ Secret p a.secret := by
  obtain ⟨b,salt,hhash,hsecret⟩ := ha.secret
  have hcheck := (onlyBcrypt_of_closed (not_fallbackOpen_hash hl.hashLaws hhash)).2 password hvalid
  cases password with
  | str p =>
    cases hp : encode p with
    | error e =>
      rw [Json.encode,hp] at hcheck
      cases hcheck
    | ok b' =>
      rw [Json.encode,hp,bcryptCheck,(hl.hashpw_text _ _ _ hhash).encode] at hcheck
      exact ⟨p,rfl,b',hp,((hl.checkpw_true_iff b' b salt _ hhash).mp hcheck).trans hsecret⟩
  | _ => cases hcheck

theorem Stands.valid_of_secret (hl : BcryptLaws rt) {row : Row} {a : Account} (ha : Stands rt row a) {p : PyStr}
    (hp : Secret p a.secret) : loginUser.validPassword rt p row.password = .ok true := by
  obtain ⟨b,salt,hhash,hsecret⟩ := ha.secret
  obtain ⟨b',hb',htake⟩ := hp
  refine (validPassword_iff _ _ _).mpr (.inl ?_)
  rw [hb',bcryptCheck,(hl.hashpw_text _ _ _ hhash).encode]
  exact (hl.checkpw_true_iff b' b salt _ hhash).mpr (htake.trans hsecret.symm)

/-- A hash that the code has made stands for the first 72 bytes of what it was made of. -/
theorem secret_of_hashText {password : Json} {salt : Bytes} {h : PyStr} (hh : hashText rt password.encode salt = .ok h) :
    ∃ p b, password = .str p ∧ Secret p (b.take 72) ∧ rt.hashpw b salt = .ok h := by
  obtain ⟨b,hb,hhash⟩ := hashText_eq_ok hh
  cases password with
  | str p => exact ⟨p,b,rfl,⟨b,hb,rfl⟩,hhash⟩
  | _ => cases hb

section Turns
variable {turn : Turn} {s s' : Store} {d : Service} {resp : Response}

private theorem step_register (hround : UuidRoundTrip rt) (hrun : turn.run rt s = (resp,s')) (hrep : Represents rt s d)
    {user : UserCreate} (hu : turn.call.request.registers rt = some user) (hs : resp.success = true) :
    ∃ d', Step d (label rt (turn.call.request,resp)) d' ∧ Represents rt s' d' := by
  obtain ⟨h,k,hreg,rfl,hfits,hid,hemail,hrows,-⟩ := run_registerUser hrun hu hs
  obtain ⟨b,hb,hhash⟩ := hashText_eq_ok hreg.hashed
  have htake := hfits.take_email (registers_email_end hu)
  have hblank : ∀ c ∈ user.name.drop 100, c = 32 := by simpa using hfits.name_blank
  rw [label_registered hround hu]
  refine ⟨_,Step.register
    (a := ⟨user.name.take 100,user.email,some (py "normal"),some (rt.isoformat (turn.choices k).now),b.take 72⟩)
    (hrep.entry_none hid) (hrep.free hemail) ⟨rfl,hblank⟩ rfl ⟨b,hb,rfl⟩,?_⟩
  intro i
  rw [Users.findById_of_append hrows]
  refine rel_update hrep _ (.some ⟨rfl,htake.symm,rfl,rfl,?_,b,_,hhash,rfl⟩) i
  change (user.email.take 255).all Runtime.storable = true
  rw [htake]
  exact hfits.email_storable

private theorem step_login (hl : BcryptLaws rt) (hround : UuidRoundTrip rt) (hrun : turn.run rt s = (resp,s'))
    (hrep : Represents rt s d) {user : UserLogin} (hu : turn.call.request.logsIn rt = some user) (hs : resp.success = true) :
    Step d (label rt (turn.call.request,resp)) d := by
  obtain ⟨row,hrow,hvalid,rfl,-⟩ := run_loginUser hrun hu hs
  obtain ⟨hmem,hemail⟩ := (Users.findByEmail_eq_some_iff _ _ _).mp hrow
  obtain ⟨a,ha,hstands⟩ := hrep.entry_of_row ((Users.findById_eq_some_iff _ _ _).mpr ⟨hmem,rfl⟩)
  have hchecked : changePassword.validPassword rt (.str user.password) row.password = .ok true := hvalid
  obtain ⟨p,hp,hsecret⟩ := hstands.secret_of_valid hl hchecked
  cases hp
  rw [label_loggedIn hround hu,← hemail,← hstands.email,← hstands.name,← hstands.role]
  exact .signIn ha hsecret

/-- The list is that of the table the request has met. -/
theorem run_listAllUsers_rows (hrun : turn.run rt s = (resp,s')) (he : turn.call.request.endpoint = some .listAllUsers)
    (hs : resp.success = true) : resp = userList rt s.users.listing := by
  obtain ⟨es,hpath,hchain,-⟩ := run_trace hrun
  obtain ⟨userId,row,rows,-,-,rfl,hes⟩ := listAllUsers_success he hpath hs
  obtain ⟨_,c₁,es₁,rfl,-,hchain,hes⟩ := hchain.uncons hes
  obtain ⟨_,c₂,es₂,rfl,-,hchain,hes⟩ := hchain.uncons hes
  obtain ⟨_,c₃,es₃,rfl,-,hchain,hes⟩ := hchain.uncons hes
  obtain ⟨_,c₄,es₄,rfl,hok,hchain,hes⟩ := hchain.uncons hes
  simp only [exec_acquire_store,exec_fetchById_store] at hok
  obtain ⟨-,t,hp⟩ := (exec_ok_iff rt _ _ _ _).mp hok
  cases hp
  rfl

theorem Stands.profile_eq {row : Row} {a : Account} (ha : Stands rt row a) :
    a.profile row.userId = listedProfile rt row.listed := by
  rw [Account.profile,ha.name,ha.email,ha.role,ha.createdAt]
  rfl

private theorem step_look (hround : UuidRoundTrip rt) (hrun : turn.run rt s = (resp,s')) (hrep : Represents rt s d)
    (he : turn.call.request.endpoint = some .getUserInfo) (hs : resp.success = true) :
    Step d (label rt (turn.call.request,resp)) d := by
  obtain ⟨userId,i,row,hu,hi,hrow,rfl,-⟩ := run_getUserInfo hrun he hs
  obtain ⟨a,ha,hstands⟩ := hrep.entry_of_row hrow
  obtain ⟨-,rfl⟩ := (Users.findById_eq_some_iff _ _ _).mp hrow
  rw [label_userInfo hround he hu hi,← hstands.profile_eq]
  exact .look ha

private theorem step_list (hround : UuidRoundTrip rt) (hrun : turn.run rt s = (resp,s')) (hrep : Represents rt s d)
    (he : turn.call.request.endpoint = some .listAllUsers) (hs : resp.success = true) :
    Step d (label rt (turn.call.request,resp)) d := by
  obtain ⟨userId,i,row,hu,hi,hrow,hrole,-⟩ := run_listAllUsers hrun he hs
  obtain rfl := run_listAllUsers_rows hrun he hs
  obtain ⟨a,ha,hstands⟩ := hrep.entry_of_row hrow
  rw [label_userList hround he hu hi]
  have hperm : (s.users.listing.map (listedProfile rt)).Perm (s.users.rows.map (fun row => listedProfile rt row.listed)) := by
    rw [Users.listing,List.map_map]
    exact (List.mergeSort_perm _ _).map _
  refine .list ha (hstands.role.trans hrole) ?_ (fun p => ?_)
  · refine hperm.nodup_iff.mpr (List.Nodup.of_map Profile.userId ?_)
    rw [List.map_map]
    exact s.users.userIdKey
  · rw [hperm.mem_iff,List.mem_map]
    constructor
    · rintro ⟨row,hmem,rfl⟩
      obtain ⟨b,hb,hstands⟩ := hrep.entry_of_row ((Users.findById_eq_some_iff _ _ _).mpr ⟨hmem,rfl⟩)
      exact ⟨row.userId,b,hb,hstands.profile_eq⟩
    · rintro ⟨j,b,hb,rfl⟩
      obtain ⟨row,hrow,hstands⟩ := hrep.row_of_entry hb
      obtain ⟨hmem,rfl⟩ := (Users.findById_eq_some_iff _ _ _).mp hrow
      exact ⟨row,hmem,hstands.profile_eq.symm⟩

private theorem step_change (hl : BcryptLaws rt) (hrun : turn.run rt s = (resp,s')) (hrep : Represents rt s d)
    {userId : PyStr} {currentPassword newPassword : Json}
    (hc : turn.call.request.changes = some (userId,currentPassword,newPassword)) (hs : resp.success = true) :
    ∃ d', Step d (label rt (turn.call.request,resp)) d' ∧ Represents rt s' d' := by
  obtain ⟨i,row,h,hi,hrow,hvalid,hhash,-,rfl⟩ := run_changePassword hrun hc hs
  obtain ⟨a,ha,hstands⟩ := hrep.entry_of_row hrow
  obtain ⟨current,rfl,hcurrent⟩ := hstands.secret_of_valid hl hvalid
  obtain ⟨new,b,rfl,hnew,hhash⟩ := secret_of_hashText hhash
  have hlabel : label rt (turn.call.request,resp) = .changed i current new := by
    obtain ⟨es,hpath,-,-⟩ := run_trace hrun
    obtain ⟨_,_,_,-,-,-,rfl,-⟩ := changePassword_success hc hpath hs
    rw [passwordChanged,label_of_success ((changes_iff _ _ _).mp hc).1,readLabel,hc]
    change ((rt.uuidParam userId).bind (fun i => some (Label.changed i current new))).getD _ = _
    rw [hi]
    rfl
  rw [hlabel]
  refine ⟨_,.change ha hcurrent hnew,?_⟩
  intro j
  rw [Users.findById_setPassword]
  refine rel_update hrep i ?_ j
  rw [hrow,ha]
  exact .some ⟨hstands.name,hstands.email,hstands.role,hstands.createdAt,hstands.storable,b,_,hhash,rfl⟩

private theorem step_remove (hrun : turn.run rt s = (resp,s')) (hrep : Represents rt s d) {userId : PyStr}
    (hd : turn.call.request.deletes = some userId) (hs : resp.success = true) :
    ∃ d', Step d (label rt (turn.call.request,resp)) d' ∧ Represents rt s' d' := by
  obtain ⟨i,row,hi,hrow,rfl⟩ := run_deleteAccount hrun hd hs
  obtain ⟨a,ha,-⟩ := hrep.entry_of_row hrow
  have hlabel : label rt (turn.call.request,resp) = .removed i := by
    obtain ⟨es,hpath,-,-⟩ := run_trace hrun
    obtain ⟨_,_,rfl,-⟩ := deleteAccount_success hd hpath hs
    rw [accountDeleted,label_of_success ((deletes_iff _).mp hd).1,readLabel,hd]
    change ((rt.uuidParam userId).bind (fun i => some (Label.removed i))).getD _ = _
    rw [hi]
    rfl
  rw [hlabel]
  refine ⟨_,.remove ha,?_⟩
  intro j
  rw [Users.findById_delete]
  exact rel_update hrep i .none j

/-- Every turn is a step of the service. -/
theorem turn_simulates (hl : BcryptLaws rt) (hround : UuidRoundTrip rt) (hrun : turn.run rt s = (resp,s'))
    (hrep : Represents rt s d) : ∃ d', Step d (label rt (turn.call.request,resp)) d' ∧ Represents rt s' d' := by
  cases hs : resp.success with
  | false =>
    obtain rfl := run_failure hrun hs
    have hquiet : label rt (turn.call.request,resp) = .quiet := by simp [label,hs]
    rw [hquiet]
    exact ⟨d,.quiet,hrep⟩
  | true =>
    obtain ⟨es,hpath,-,-⟩ := run_trace hrun
    obtain ⟨endpoint,he⟩ := endpoint_of_success hpath hs
    cases endpoint with
    | registerUser =>
      obtain ⟨user,hu⟩ := registers_of_success he hpath hs
      exact step_register hround hrun hrep hu hs
    | changePassword =>
      obtain ⟨userId,cur,new,hc⟩ := changes_of_success he hpath hs
      exact step_change hl hrun hrep hc hs
    | deleteAccount =>
      obtain ⟨userId,hd⟩ := deletes_of_success he hpath hs
      exact step_remove hrun hrep hd hs
    | loginUser =>
      obtain ⟨user,hu⟩ := logsIn_of_success he hpath hs
      obtain rfl := run_reading hrun he rfl
      exact ⟨d,step_login hl hround hrun hrep hu hs,hrep⟩
    | getUserInfo =>
      obtain rfl := run_reading hrun he rfl
      exact ⟨d,step_look hround hrun hrep he hs,hrep⟩
    | listAllUsers =>
      obtain rfl := run_reading hrun he rfl
      exact ⟨d,step_list hround hrun hrep he hs,hrep⟩
    | _ =>
      obtain rfl := run_reading hrun he rfl
      have hquiet : label rt (turn.call.request,resp) = .quiet := by
        cases hcontent : resp.content <;> simp [label,hs,he,hcontent,readLabel]
      rw [hquiet]
      exact ⟨d,.quiet,hrep⟩

/-- What a turn has shown: its answer or, where giving its connection back has raised, the answer
that a turn with the same effect gives. -/
def Shows (rt : Runtime) (x : Turn × Store) (l : Label) : Prop :=
  l = label rt (x.1.call.request,(Pool.run rt x.1 x.2).1) ∨
    ∃ e, Pool.Raised rt () (Pool.log rt x.1 x.2) e ∧ (Pool.run rt x.1 x.2).1 = Pool.releaseError x.1.call.request e ∧
      ∃ plain : Turn, plain.call = x.1.call ∧ (plain.run rt x.2).2 = (Pool.run rt x.1 x.2).2 ∧
        l = label rt (x.1.call.request,(plain.run rt x.2).1)

theorem Shows.of_healthy {x : Turn × Store} {l : Label} (h : Shows rt x l) (hfault : ∀ k, x.1.fault k = none) :
    l = label rt (x.1.call.request,(Pool.run rt x.1 x.2).1) := by
  rcases h with h | ⟨e,hraised,-⟩
  · exact h
  · obtain ⟨k,hk⟩ := Pool.fault_of_log hraised
    rw [hfault k] at hk
    cases hk

theorem served_simulates (hl : BcryptLaws rt) (hround : UuidRoundTrip rt) (hrep : Represents rt s d) (turn : Turn) :
    ∃ l d', Shows rt (turn,s) l ∧ Step d l d' ∧ Represents rt (Pool.run rt turn s).2 d' := by
  rcases Pool.run_cases turn s with ⟨plain,hcall,hrun⟩ | ⟨e,hraised,hfail,hsame | ⟨plain,hcall,hstore⟩⟩
  · obtain ⟨d',hstep,hrep'⟩ := turn_simulates hl hround hrun hrep
    rw [hcall] at hstep
    exact ⟨_,d',.inl rfl,hstep,hrep'⟩
  · have hquiet : label rt (turn.call.request,(Pool.run rt turn s).1) = .quiet := by
      simp [label,hfail,Pool.releaseError_success]
    exact ⟨.quiet,d,.inl hquiet.symm,.quiet,hsame.symm ▸ hrep⟩
  · have hrun : plain.run rt s = ((plain.run rt s).1,(plain.run rt s).2) := rfl
    obtain ⟨d',hstep,hrep'⟩ := turn_simulates hl hround hrun hrep
    rw [hcall] at hstep
    exact ⟨_,d',.inr ⟨e,hraised,hfail,plain,hcall,hstore,rfl⟩,hstep,hstore ▸ hrep'⟩

/-- A session is a run of the service, whatever faults it meets. -/
theorem session_simulates (hl : BcryptLaws rt) (hround : UuidRoundTrip rt) (hrep : Represents rt s d) (turns : List Turn) :
    ∃ labels d', List.Forall₂ (Shows rt) (Pool.met rt s turns) labels ∧ Traces Step d labels d' ∧
      Represents rt (Pool.after rt s turns) d' := by
  induction turns using List.reverseRecOn with
  | nil => exact ⟨[],d,.nil,.nil,hrep⟩
  | append_singleton turns turn ih =>
    obtain ⟨labels,d₁,hshows,htrace,hrep₁⟩ := ih
    obtain ⟨l,d₂,hshow,hstep,hrep₂⟩ := served_simulates hl hround hrep₁ turn
    rw [Pool.met_snoc,Pool.after_snoc]
    exact ⟨labels ++ [l],d₂,List.rel_append hshows (.cons hshow .nil),htrace.snoc hstep,hrep₂⟩

/-- The server, seen from outside, is the account service: every session from a table that
represents a directory is a run of it, whatever faults are met, and its labels are those of
the answers given, except where giving a connection back has raised and the label is that of
what the request has done. Where no fault is met it refuses neither a sign-in with the right
secret nor a look at an account that exists. -/
theorem sessions_refine_service (hl : BcryptLaws rt) (hround : UuidRoundTrip rt) (hrep : Represents rt s d)
    (turns : List Turn) :
    ∃ labels d', List.Forall₂ (Shows rt) (Pool.met rt s turns) labels ∧ Traces Step d labels d' ∧
      Represents rt (Pool.after rt s turns) d' ∧
      ∀ turn : Turn, (∀ k, turn.fault k = none) →
        (∀ user i a, turn.call.request.logsIn rt = some user → d'.entry i = some a → a.email = user.email →
          Secret user.password a.secret → label rt (turn.call.request,(Pool.run rt turn (Pool.after rt s turns)).1) =
            .signedIn user.email user.password i a.name a.email a.role) ∧
        ∀ userId i a, turn.call.request.endpoint = some .getUserInfo → turn.call.request.userId = some userId →
          rt.uuidParam userId = some i → d'.entry i = some a →
          label rt (turn.call.request,(Pool.run rt turn (Pool.after rt s turns)).1) = .shown i (a.profile i) := by
  obtain ⟨labels,d',hshows,htrace,hrep'⟩ := session_simulates hl hround hrep turns
  refine ⟨labels,d',hshows,htrace,hrep',fun turn hfault => ?_⟩
  rw [Pool.run_healthy hfault]
  refine ⟨?_,?_⟩
  · intro user i a hu ha hemail hsecret
    obtain ⟨row,hrow,hstands⟩ := hrep'.row_of_entry ha
    obtain ⟨hmem,rfl⟩ := (Users.findById_eq_some_iff _ _ _).mp hrow
    have hfound : (Pool.after rt s turns).users.findByEmail user.email = some row :=
      (Users.findByEmail_eq_some_iff _ _ _).mpr ⟨hmem,hstands.email.symm.trans hemail⟩
    have hstorable : user.email.all Runtime.storable = true := by
      rw [← hemail,hstands.email]
      exact hstands.storable
    have hrun : turn.run rt (Pool.after rt s turns) = (loggedIn rt row,Pool.after rt s turns) :=
      run_loginUser_of_valid hfault hu hfound hstorable (hstands.valid_of_secret hl hsecret)
    rw [hrun,label_loggedIn hround hu,hstands.name,hstands.email,hstands.role]
  · intro userId i a he hu hi ha
    obtain ⟨row,hrow,hstands⟩ := hrep'.row_of_entry ha
    have hrun : turn.run rt (Pool.after rt s turns) = (userInfo rt row,Pool.after rt s turns) :=
      run_getUserInfo_of_found hfault he hu hi hrow
    obtain ⟨-,rfl⟩ := (Users.findById_eq_some_iff _ _ _).mp hrow
    rw [hrun,label_userInfo hround he hu hi,hstands.profile_eq]

theorem sessions_refine_service_change :
    ∃ d', Traces Step noAccounts [.registered Reference.accountId (py "user") (py "user@example.com") (py "secret1"),
      .changed Reference.accountId (py "secret1") (py "secret2")] d' := by
  obtain ⟨labels,d',hshows,htrace,-⟩ := sessions_refine_service Reference.bcryptLaws Reference.roundTrip (represents_empty [])
    registerThenChange
  cases hshows with | cons hfirst hrest =>
  cases hrest with | cons hsecond hrest =>
  cases hrest
  have hregistered := (hfirst.of_healthy (fun _ => rfl)).trans
    (show _ = .registered Reference.accountId (py "user") (py "user@example.com") (py "secret1") by decide +kernel)
  have hchanged := (hsecond.of_healthy (fun _ => rfl)).trans
    (show _ = .changed Reference.accountId (py "secret1") (py "secret2") by decide +kernel)
  rw [hregistered,hchanged] at htrace
  exact ⟨d',htrace⟩

end Turns

end Accounts
end Thintuit.Server
