import Thintuit.Client.Dashboard
import Thintuit.Client.Forms
import Thintuit.Client.LocalStorage
import Thintuit.Client.Network
import Thintuit.Server.Accounts
import Thintuit.Server.Identity

/-! The whole system: the server with its table, and any number of browsers, each with its
`localStorage`. The pages talk to the server over a network that loses requests and
answers, a page may wait for its answer while anything else happens, and requests may
also come from elsewhere. -/
namespace Thintuit.Client
open Server KeyValue
open Server.Accounts (field text)

/-- The browser's `JSON` object. -/
structure Scripting where
  stringify : Json → PyStr
  parse : PyStr → Option Json

/-- A value as a condition of a script: other than in Python, empty arrays and objects count as
true and NaN as false. -/
def holds : Json → Bool
  | .null => false
  | .bool b => b
  | .int n => n ≠ 0
  | .float (.finite q) => q ≠ 0
  | .float (.infinite _) => true
  | .float .nan => false
  | .str s => !s.isEmpty
  | .arr _ | .obj _ => true

/-- Only `js/login.js` changes the email before it is sent. -/
def LoginPage.request (cookies : List (PyStr × PyStr)) (email password : PyStr) : LoginPage → Request
  | .jsLogin => Client.loginUser cookies ((trim email).map asciiLower) password
  | .publicLogin | .staticLogin | .layoutsLogin => Client.loginUser cookies email password

/-- `data.user` with the fields the login pages read. -/
def readUser (data : Json) : Option User := do
  let id ← text (field "id" (field "user" data))
  let name ← text (field "name" (field "user" data))
  if h : id ≠ [] then some ⟨id,name,text (field "role" (field "user" data)),h⟩ else none

/-- The user a page stores when its login is answered; `js/login.js` also asks for `data.success`. -/
def LoginPage.accepts (page : LoginPage) (resp : Response) : Option User :=
  match resp.content with
  | .json data =>
    if resp.success && (page ≠ .jsLogin || holds (field "success" data)) then readUser data else none
  | _ => none

inductive Visit (β : Type) where
  | elsewhere (request : Request) (delivery : Delivery)
  | login (browser : β) (page : LoginPage) (email password : PyStr) (delivery : Delivery)
  | logout (browser : β)
  /-- `js/dashboard.js` is loaded. -/
  | load (browser : β) (delivery : Delivery)
  | logoutUser (browser : β) (delivery : Delivery)
  | changePassword (browser : β) (currentPassword newPassword confirmPassword : PyStr) (delivery : Delivery)
  | deleteAccount (browser : β) (delivery : Delivery)

/-- A visit sends its request, which is served as it was sent, and some time later its script
goes on with the answer. -/
inductive Progress (β : Type) where
  | start (visit : Visit β)
  | finish (i : Nat)

/-- Each waiting visit has the answer that is on its way, if it gets one. -/
structure World (β : Type) where
  store : Store
  storage : β → Storage
  waiting : List (Visit β × Option Response)

section Steps
variable {β : Type} [DecidableEq β] (rt : Runtime) (js : Scripting)

/-- `getUserInfoFromLocalStorage()`. -/
def getUserInfoFromLocalStorage (s : Storage) : Option Json :=
  match s .userInfo with
  | none => none
  | some userInfoStr => if userInfoStr = [] then none else js.parse userInfoStr

/-- The request a visit sends. -/
def Visit.request (w : World β) : Visit β → Option (Request × Delivery)
  | .elsewhere request d => some (request,d)
  | .login _ page email password d => some (page.request d.cookies email password,d)
  | .logout _ => none
  | .load b d =>
    if (getUserInfoFromLocalStorage js (w.storage b)).any holds then none
    else some (Dashboard.fetchUserInfoFromServer d.cookies,d)
  | .logoutUser _ d => some (bare .post "/logout" ⟨[],d.cookies⟩,d)
  | .changePassword _ currentPassword newPassword confirmPassword d =>
    (Dashboard.changePassword d.cookies currentPassword newPassword confirmPassword).map (fun request => (request,d))
  | .deleteAccount _ d => some (Dashboard.deleteAccount d.cookies,d)

/-- A success answer whose JSON says so too. -/
def succeeded (resp : Response) : Option Json :=
  match resp.content with
  | .json data => if resp.success && holds (field "success" data) then some data else none
  | _ => none

/-- What the script of the page then does to the storage of its browser. -/
def Visit.act (resp : Option Response) : Visit β → Option (β × Action)
  | .elsewhere _ _ | .changePassword _ _ _ _ _ => none
  | .login b page _ _ _ => (resp.bind page.accepts).map (fun user => (b,.login page user))
  | .logout b => some (b,.logout)
  | .load b _ => (resp.bind succeeded).map (fun data => (b,.fetchUserInfoFromServer (js.stringify (field "user" data))))
  | .logoutUser b _ => some (b,.logoutUser resp.isSome)
  | .deleteAccount b _ => (resp.bind succeeded).map (fun _ => (b,.deleteAccount))

namespace World
variable (w : World β) (v : Visit β)

def exchange : Option Response × Store :=
  match v.request js w with
  | none => (none,w.store)
  | some (request,d) => d.send rt request w.store

def finish (x : Visit β × Option Response) : β → Storage :=
  match x.1.act js x.2 with
  | none => w.storage
  | some (b,a) => Function.update w.storage b (execute a.script (w.storage b))

def step : Progress β → World β
  | .start v => ⟨(w.exchange rt js v).2,w.storage,w.waiting ++ [(v,(w.exchange rt js v).1)]⟩
  | .finish i =>
    match w.waiting[i]? with
    | none => w
    | some x => ⟨w.store,w.finish js x,w.waiting.eraseIdx i⟩

def run (events : List (Progress β)) : World β := events.foldl (step rt js) w

/-- The turn of a request that gets to the server. -/
def served : Progress β → Option Turn
  | .start v => (v.request js w).bind (fun x => x.2.served x.1)
  | .finish _ => none

/-- The requests that got to the server, in order. -/
def turns : World β → List (Progress β) → List Turn
  | _, [] => []
  | w, e :: events => (w.served js e).toList ++ turns (w.step rt js e) events

end World
end Steps

namespace World
variable {β : Type} [DecidableEq β] {rt : Runtime} {js : Scripting} {w : World β}

theorem run_append (xs ys : List (Progress β)) : w.run rt js (xs ++ ys) = (w.run rt js xs).run rt js ys :=
  List.foldl_append

theorem step_store (e : Progress β) : (w.step rt js e).store = after rt w.store (w.served js e).toList := by
  cases e with
  | start v =>
    rw [step,served,exchange]
    cases v.request js w with
    | none => rfl
    | some x => exact Delivery.send_store
  | finish i =>
    rw [step]
    split <;> rfl

/-- Seen from the server, whatever the browsers do is a session. -/
theorem run_store (events : List (Progress β)) : (w.run rt js events).store = after rt w.store (w.turns rt js events) := by
  induction events generalizing w with
  | nil => rfl
  | cons e events ih =>
    rw [turns,after_append,← step_store]
    exact ih

end World

section SignedIn
variable {β : Type} [DecidableEq β] (rt : Runtime) (js : Scripting) (w : World β)

/-- During the run a login from the browser was accepted, for the account of the row; with
`role`, through a page that stores the role. -/
def SignedIn (events : List (Progress β)) (b : β) (role : Bool) (row : Row) : Prop :=
  ∃ before page email password d rest user, events = before ++ .start (.login b page email password d) :: rest ∧
    (role = true → page.storesRole = true) ∧ d.reached = true ∧ d.returned = true ∧
    (page.request d.cookies email password).logsIn rt = some user ∧
    (w.run rt js before).store.users.findByEmail user.email = some row ∧
    loginUser.validPassword rt user.password row.password = .ok true ∧
    -- and the account is still there, unless it was deleted since
    ((∀ x ∈ history rt (w.run rt js before).store ((w.run rt js before).turns rt js (.start (.login b page email password d) :: rest)),
      deletedId rt row.userId x = false) →
      ∃ password, (w.run rt js events).store.users.findById row.userId = some { row with password := password })

/-- What a storage says, the server has said. -/
structure Sound (events : List (Progress β)) (b : β) (s : Storage) : Prop where
  userId : ∀ t, s .userId = some t → ∃ row, SignedIn rt js w events b false row ∧ t = rt.uuidStr row.userId ∧
    s .userName = some row.name
  userName : ∀ t, s .userName = some t → ∃ row, SignedIn rt js w events b false row ∧ t = row.name ∧
    s .userId = some (rt.uuidStr row.userId)
  isLoggedIn : ∀ t, s .isLoggedIn = some t → ∃ row, SignedIn rt js w events b true row
  userRole : ∀ t, s .userRole = some t → ∃ row, SignedIn rt js w events b true row ∧ t = row.role.getD (py "null")
  userInfo : s .userInfo = none

/-- What an answer on its way will make its page store. -/
structure Earned (events : List (Progress β)) (x : Visit β × Option Response) : Prop where
  login : ∀ {b page email password d user}, x.1 = .login b page email password d → x.2.bind page.accepts = some user →
    ∃ row, (∀ role, (role = true → page.storesRole = true) → SignedIn rt js w events b role row) ∧
      user.id = rt.uuidStr row.userId ∧ user.name = row.name ∧ user.role = row.role
  load : ∀ {b d}, x.1 = .load b d → x.2.bind succeeded = none

end SignedIn

section Answers
variable {rt : Runtime} {s s' : Store} {turn : Turn} {resp : Response}

/-- A page stores what the server knows of the account whose password was given. -/
theorem accepts_login {page : LoginPage} {cookies : List (PyStr × PyStr)} {email password : PyStr} {user : User}
    (hrun : turn.run rt s = (resp,s')) (hrequest : turn.call.request = page.request cookies email password)
    (h : page.accepts resp = some user) :
    ∃ login row, turn.call.request.logsIn rt = some login ∧ s.users.findByEmail login.email = some row ∧
      loginUser.validPassword rt login.password row.password = .ok true ∧
      user.id = rt.uuidStr row.userId ∧ user.name = row.name ∧ user.role = row.role := by
  have hend : turn.call.request.endpoint = some .loginUser := by
    rw [hrequest]
    cases page <;> rfl
  have hs : resp.success = true := by
    unfold LoginPage.accepts at h
    split at h
    · split at h
      · rename_i hok
        exact (Bool.and_eq_true_iff.mp hok).1
      · cases h
    · cases h
  obtain ⟨es,hpath,-,-⟩ := run_trace hrun
  obtain ⟨login,hlogin⟩ := logsIn_of_success hend hpath hs
  obtain ⟨row,hrow,hvalid,rfl,-⟩ := run_loginUser hrun hlogin hs
  have hread : page.accepts (loggedIn rt row) = if hid : rt.uuidStr row.userId ≠ [] then
      some ⟨rt.uuidStr row.userId,row.name,text (nullable row.role),hid⟩ else none := by
    cases page <;> rfl
  rw [hread] at h
  split at h
  · obtain rfl := Option.some.inj h
    exact ⟨login,row,hlogin,hrow,hvalid,rfl,rfl,Accounts.text_nullable _⟩
  · cases h

/-- `js/dashboard.js` names no user, so nothing is ever sent back for it to store. -/
theorem load_refused {cookies : List (PyStr × PyStr)} (hrun : turn.run rt s = (resp,s'))
    (hrequest : turn.call.request = Dashboard.fetchUserInfoFromServer cookies) : succeeded resp = none := by
  have hs : resp.success = false := by
    rw [Bool.eq_false_iff]
    intro hs
    obtain ⟨userId,_,_,hu,-⟩ := run_getUserInfo hrun (by rw [hrequest]; rfl) hs
    rw [hrequest] at hu
    cases hu
  unfold succeeded
  split
  · rw [hs]
    rfl
  · rfl

end Answers

section Soundness
variable {β : Type} [DecidableEq β] {rt : Runtime} {js : Scripting} {w : World β} {events : List (Progress β)} {b : β}

/-- The row of an accepted login stays in the table, up to its password, until it is deleted. -/
theorem row_kept {before rest : List (Progress β)} {i : Uuid} {row : Row}
    (hrow : (w.run rt js before).store.users.findById i = some row)
    (hkeep : ∀ x ∈ history rt (w.run rt js before).store ((w.run rt js before).turns rt js rest), deletedId rt i x = false) :
    ∃ password, (w.run rt js (before ++ rest)).store.users.findById i = some { row with password := password } := by
  obtain ⟨password,hlast⟩ := session_keeps hrow _ hkeep
  rw [← World.run_store,← World.run_append] at hlast
  exact ⟨password,hlast⟩

theorem signedIn_of_login {before : List (Progress β)} {page : LoginPage} {email password : PyStr} {d : Delivery}
    {rest : List (Progress β)} {login : UserLogin} {role : Bool} {row : Row} (hrole : role = true → page.storesRole = true)
    (hreached : d.reached = true) (hreturned : d.returned = true)
    (hlogin : (page.request d.cookies email password).logsIn rt = some login)
    (hrow : (w.run rt js before).store.users.findByEmail login.email = some row)
    (hvalid : loginUser.validPassword rt login.password row.password = .ok true) :
    SignedIn rt js w (before ++ .start (.login b page email password d) :: rest) b role row := by
  refine ⟨before,page,email,password,d,rest,login,rfl,hrole,hreached,hreturned,hlogin,hrow,hvalid,fun hkeep => ?_⟩
  obtain ⟨hmem,-⟩ := (Users.findByEmail_eq_some_iff _ _ _).mp hrow
  exact row_kept ((Users.findById_eq_some_iff _ _ _).mpr ⟨hmem,rfl⟩) hkeep

theorem SignedIn.snoc {role : Bool} {row : Row} (h : SignedIn rt js w events b role row) (e : Progress β) :
    SignedIn rt js w (events ++ [e]) b role row := by
  obtain ⟨before,page,email,password,d,rest,login,rfl,hrole,hreached,hreturned,hlogin,hrow,hvalid,-⟩ := h
  rw [List.append_assoc,List.cons_append]
  exact signedIn_of_login hrole hreached hreturned hlogin hrow hvalid

theorem Sound.snoc {s : Storage} (h : Sound rt js w events b s) (e : Progress β) : Sound rt js w (events ++ [e]) b s where
  userId t ht := by
    obtain ⟨row,hrow,hid,hname⟩ := h.userId t ht
    exact ⟨row,hrow.snoc e,hid,hname⟩
  userName t ht := by
    obtain ⟨row,hrow,hname,hid⟩ := h.userName t ht
    exact ⟨row,hrow.snoc e,hname,hid⟩
  isLoggedIn t ht := by
    obtain ⟨row,hrow⟩ := h.isLoggedIn t ht
    exact ⟨row,hrow.snoc e⟩
  userRole t ht := by
    obtain ⟨row,hrow,hrole⟩ := h.userRole t ht
    exact ⟨row,hrow.snoc e,hrole⟩
  userInfo := h.userInfo

theorem Earned.snoc {x : Visit β × Option Response} (h : Earned rt js w events x) (e : Progress β) :
    Earned rt js w (events ++ [e]) x where
  login hx huser := by
    obtain ⟨row,hrow,hsame⟩ := h.login hx huser
    exact ⟨row,fun role hrole => (hrow role hrole).snoc e,hsame⟩
  load := h.load

/-- A login that the server has accepted leaves a sound storage. -/
theorem Sound.login {s : Storage} (h : Sound rt js w events b s) {page : LoginPage} {user : User} {row : Row}
    (hrow : ∀ role, (role = true → page.storesRole = true) → SignedIn rt js w events b role row)
    (hid : user.id = rt.uuidStr row.userId) (hname : user.name = row.name) (hrole : user.role = row.role) :
    Sound rt js w events b (execute (Action.login page user).script s) := by
  have hnames : execute (Action.login page user).script s .userId = some user.id ∧
      execute (Action.login page user).script s .userName = some user.name ∧
      execute (Action.login page user).script s .userInfo = s .userInfo := by
    cases page <;> exact ⟨rfl,rfl,rfl⟩
  have hrest : page.storesRole = true ∧ execute (Action.login page user).script s .userRole = some user.roleText ∨
      execute (Action.login page user).script s .userRole = s .userRole ∧
      execute (Action.login page user).script s .isLoggedIn = s .isLoggedIn := by
    cases page with
    | publicLogin | jsLogin => exact .inl ⟨rfl,rfl⟩
    | staticLogin | layoutsLogin => exact .inr ⟨rfl,rfl⟩
  refine ⟨fun t ht => ⟨row,hrow false (by simp),?_,?_⟩,fun t ht => ⟨row,hrow false (by simp),?_,?_⟩,fun t ht => ?_,
    fun t ht => ?_,hnames.2.2.trans h.userInfo⟩
  · rw [hnames.1] at ht
    exact (Option.some.inj ht).symm.trans hid
  · rw [hnames.2.1,hname]
  · rw [hnames.2.1] at ht
    exact (Option.some.inj ht).symm.trans hname
  · rw [hnames.1,hid]
  · rcases hrest with ⟨hstores,-⟩ | ⟨-,hflag⟩
    · exact ⟨row,hrow true (fun _ => hstores)⟩
    · exact h.isLoggedIn t (hflag ▸ ht)
  · rcases hrest with ⟨hstores,htext⟩ | ⟨htext,-⟩
    · refine ⟨row,hrow true (fun _ => hstores),?_⟩
      rw [htext,User.roleText,hrole] at ht
      exact (Option.some.inj ht).symm
    · exact h.userRole t (htext ▸ ht)

/-- No other script gives a key a value, except the one that stores `userInfo`. -/
theorem Sound.other {s : Storage} (h : Sound rt js w events b s) {a : Action} (hlogin : a.logsIn = false)
    (hinfo : a.storesInfo = false) : Sound rt js w events b (execute a.script s) := by
  cases a with
  | login page user => cases hlogin
  | fetchUserInfoFromServer text => cases hinfo
  | logout =>
    exact ⟨fun t ht => (by cases ht),fun t ht => (by cases ht),fun t ht => (by cases ht),fun t ht => h.userRole t ht,h.userInfo⟩
  | logoutUser answered =>
    cases answered with
    | true => exact ⟨h.userId,h.userName,h.isLoggedIn,h.userRole,rfl⟩
    | false => exact h
  | deleteAccount => exact ⟨h.userId,h.userName,h.isLoggedIn,h.userRole,rfl⟩

omit [DecidableEq β] in
theorem load_answered (u : World β) (b : β) (d : Delivery) : (u.exchange rt js (.load b d)).1.bind succeeded = none := by
  rw [World.exchange,Visit.request]
  by_cases hstored : (getUserInfoFromLocalStorage js (u.storage b)).any holds = true
  · rw [if_pos hstored]
    rfl
  · rw [if_neg hstored]
    dsimp only
    cases hresp : (d.send rt (Dashboard.fetchUserInfoFromServer d.cookies) u.store).1 with
    | none => rfl
    | some resp =>
      obtain ⟨-,-,hrun⟩ := Delivery.send_eq_some hresp
      exact load_refused hrun rfl

/-- The answer to a request of a sound world is worth what its page will store. -/
theorem earned_exchange (v : Visit β) :
    Earned rt js w (events ++ [.start v]) (v,((w.run rt js events).exchange rt js v).1) where
  login := by
    rintro b page email password d user rfl huser
    obtain ⟨resp,hresp,huser⟩ := Option.bind_eq_some_iff.mp huser
    obtain ⟨hreached,hreturned,hrun⟩ := Delivery.send_eq_some hresp
    obtain ⟨login,row,hlogin,hrow,hvalid,hsame⟩ := accepts_login hrun rfl huser
    exact ⟨row,fun role hstores => signedIn_of_login hstores hreached hreturned hlogin hrow hvalid,hsame⟩
  load := by
    rintro b d rfl
    exact load_answered _ b d

/-- Whatever answer a script goes on with, the storage of every browser stays sound. -/
theorem Sound.finish {u : World β} (h : ∀ b, Sound rt js w events b (u.storage b)) {x : Visit β × Option Response}
    (hx : Earned rt js w events x) (b : β) : Sound rt js w events b (u.finish js x b) := by
  unfold World.finish
  cases hact : x.1.act js x.2 with
  | none => exact h b
  | some y =>
    obtain ⟨c,a⟩ := y
    dsimp only
    rw [Function.update_apply]
    split
    · rename_i hbc
      subst hbc
      obtain ⟨v,resp⟩ := x
      cases v with
      | elsewhere | changePassword => cases hact
      | logout =>
        cases hact
        exact (h b).other rfl rfl
      | logoutUser =>
        cases hact
        exact (h b).other rfl rfl
      | deleteAccount =>
        obtain ⟨data,-,hy⟩ := Option.map_eq_some_iff.mp hact
        cases hy
        exact (h b).other rfl rfl
      | load c d =>
        obtain ⟨data,hdata,-⟩ := Option.map_eq_some_iff.mp hact
        rw [hx.load rfl] at hdata
        cases hdata
      | login c page email password d =>
        obtain ⟨user,huser,hy⟩ := Option.map_eq_some_iff.mp hact
        cases hy
        obtain ⟨row,hrow,hid,hname,hrole⟩ := hx.login rfl huser
        exact (h b).login hrow hid hname hrole
    · exact h b

/-- Every event keeps every storage sound and every answer on its way earned. -/
theorem sound_step (h : ∀ b, Sound rt js w events b ((w.run rt js events).storage b))
    (hwaiting : ∀ x ∈ (w.run rt js events).waiting, Earned rt js w events x) (e : Progress β) :
    (∀ b, Sound rt js w (events ++ [e]) b ((w.run rt js (events ++ [e])).storage b)) ∧
      ∀ x ∈ (w.run rt js (events ++ [e])).waiting, Earned rt js w (events ++ [e]) x := by
  have hsnoc : w.run rt js (events ++ [e]) = (w.run rt js events).step rt js e := World.run_append events [e]
  rw [hsnoc]
  cases e with
  | start v =>
    refine ⟨fun b => (h b).snoc _,fun x hx => ?_⟩
    rcases List.mem_append.mp hx with hx | hx
    · exact (hwaiting x hx).snoc _
    · obtain rfl := List.mem_singleton.mp hx
      exact earned_exchange v
  | finish i =>
    rw [World.step]
    cases hi : (w.run rt js events).waiting[i]? with
    | none => exact ⟨fun b => (h b).snoc _,fun x hx => (hwaiting x hx).snoc _⟩
    | some x =>
      have hx := hwaiting x (List.mem_of_getElem? hi)
      exact ⟨Sound.finish (fun b => (h b).snoc _) (hx.snoc _),fun y hy => (hwaiting y (List.mem_of_mem_eraseIdx hy)).snoc _⟩

/-- In every run of the system, whatever gets lost or comes late and whatever else is asked of the
server: the id and the name a browser shows are those of one account that was signed in to
there; the dashboard opens and shows its admin panel only where a sign-in, of an admin for the
panel, was accepted through a page that stores the role; nothing is ever stored under `userInfo`. -/
theorem browsers_show_accounts (w : World β) (hempty : ∀ b k, w.storage b k = none) (hidle : w.waiting = [])
    (events : List (Progress β)) (b : β) :
    (∀ t, (w.run rt js events).storage b .userId = some t →
      ∃ row, SignedIn rt js w events b false row ∧ t = rt.uuidStr row.userId ∧
        (w.run rt js events).storage b .userName = some row.name) ∧
    (∀ t, (w.run rt js events).storage b .userName = some t →
      ∃ row, SignedIn rt js w events b false row ∧ t = row.name ∧
        (w.run rt js events).storage b .userId = some (rt.uuidStr row.userId)) ∧
    ((dashboard ((w.run rt js events).storage b)).admitted = true → ∃ row, SignedIn rt js w events b true row) ∧
    ((dashboard ((w.run rt js events).storage b)).adminSection = true →
      ∃ row, SignedIn rt js w events b true row ∧ row.role = some (py "admin")) ∧
    (w.run rt js events).storage b .userInfo = none := by
  have hsound : (∀ b, Sound rt js w events b ((w.run rt js events).storage b)) ∧
      ∀ x ∈ (w.run rt js events).waiting, Earned rt js w events x := by
    induction events using List.reverseRecOn with
    | nil =>
      refine ⟨fun b => ?_,fun x hx => ?_⟩
      · have hnothing : ∀ {k t}, w.storage b k ≠ some t := fun {k t} ht => by simp [hempty b k] at ht
        exact ⟨fun t ht => absurd ht hnothing,fun t ht => absurd ht hnothing,fun t ht => absurd ht hnothing,
          fun t ht => absurd ht hnothing,hempty b _⟩
      · change x ∈ w.waiting at hx
        rw [hidle] at hx
        cases hx
    | append_singleton events e ih => exact sound_step ih.1 ih.2 e
  have hb := hsound.1 b
  refine ⟨hb.userId,hb.userName,fun hadmitted => ?_,fun hadmin => ?_,hb.userInfo⟩
  · cases hflag : (w.run rt js events).storage b .isLoggedIn with
    | none =>
      rw [dashboard,dashboardGate,hflag] at hadmitted
      cases hadmitted
    | some t => exact hb.isLoggedIn t hflag
  · obtain ⟨row,hrow,hrole⟩ := hb.userRole _ (of_decide_eq_true hadmin)
    refine ⟨row,hrow,?_⟩
    cases hr : row.role with
    | none =>
      rw [hr] at hrole
      exact absurd hrole (by decide)
    | some role =>
      rw [hr] at hrole
      exact congrArg some hrole.symm

/-- A browser that has stored nothing yet, and a server with one account. -/
def firstVisit : World Unit := ⟨Reference.store,fun _ _ => none,[]⟩

def signIn : Visit Unit := .login () .publicLogin (py "user@example.com") (py "secret1")
  ⟨[],[],0,0,fun _ => none,true,true⟩

/-- While the answer to the login is on its way, the user logs out in another tab. -/
def lateAnswer : List (Progress Unit) := [.start signIn,.start (.logout ()),.finish 1,.finish 0]

theorem browsers_show_accounts_late :
    (dashboard ((firstVisit.run reference ⟨fun _ => [],fun _ => none⟩ lateAnswer).storage ())).admitted = true ∧
      ∃ row, SignedIn reference ⟨fun _ => [],fun _ => none⟩ firstVisit lateAnswer () true row := by
  have hadmitted : (dashboard ((firstVisit.run reference ⟨fun _ => [],fun _ => none⟩ lateAnswer).storage ())).admitted = true := by
    decide +kernel
  exact ⟨hadmitted,(browsers_show_accounts firstVisit (fun _ _ => rfl) rfl lateAnswer ()).2.2.1 hadmitted⟩

end Soundness

end Thintuit.Client
