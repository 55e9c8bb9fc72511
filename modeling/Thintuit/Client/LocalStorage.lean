import Thintuit.Interaction.KeyValue
import Thintuit.Server.Values

/-! The session as the pages keep it in `localStorage`. Four login pages, two logouts and
two gates share five keys, and no two of them know the same ones. -/
namespace Thintuit.Client
open Server KeyValue

inductive Key where
  | userId | userName | userRole | isLoggedIn | userInfo
  deriving DecidableEq

abbrev Storage := Key → Option PyStr

/-- `data.user` of a login answer. The id is the text of a UUID. -/
structure User where
  id : PyStr
  name : PyStr
  role : Option PyStr
  id_ne_nil : id ≠ []
  deriving DecidableEq

/-- `setItem` stores `null` as text. -/
def User.roleText (u : User) : PyStr := u.role.getD (py "null")

/-- `public/login/index.html`, `js/login.js`, `static/login/login.html` and `layouts/login/login.html`. -/
inductive LoginPage where
  | publicLogin | jsLogin | staticLogin | layoutsLogin
  deriving DecidableEq

/-- What `loginUser` of a page stores once the server has accepted. -/
def LoginPage.loginUser (u : User) : LoginPage → List (Command Key PyStr)
  | .publicLogin | .jsLogin => [.setItem .isLoggedIn (py "true"),.setItem .userId u.id,.setItem .userName u.name,
      .setItem .userRole u.roleText]
  | .staticLogin | .layoutsLogin => [.setItem .userId u.id,.setItem .userName u.name]

def LoginPage.storesRole : LoginPage → Bool
  | .publicLogin | .jsLogin => true
  | .staticLogin | .layoutsLogin => false

/-- What happens to the session in one browser. The request of `logoutUser` may fail; a
deletion is a successful one; `fetchUserInfoFromServer` stores the data it has received. -/
inductive Action where
  | login (page : LoginPage) (user : User)
  | logout
  | logoutUser (answered : Bool)
  | deleteAccount
  | fetchUserInfoFromServer (text : PyStr)

namespace Action

def script : Action → List (Command Key PyStr)
  | .login page user => page.loginUser user
  | .logout => [.removeItem .userId,.removeItem .userName,.removeItem .isLoggedIn]
  | .logoutUser true => [.removeItem .userInfo]
  -- the `catch` branch only redirects
  | .logoutUser false => []
  | .deleteAccount => [.removeItem .userInfo]
  | .fetchUserInfoFromServer text => [.setItem .userInfo text]

def endsSession : Action → Bool
  | .logout | .logoutUser _ | .deleteAccount => true
  | _ => false

def logsIn : Action → Bool
  | .login _ _ => true
  | _ => false

def storesRole : Action → Bool
  | .login page _ => page.storesRole
  | _ => false

/-- The `logout()` of the dashboard page. -/
def isLogout : Action → Bool
  | .logout => true
  | _ => false

def storesInfo : Action → Bool
  | .fetchUserInfoFromServer _ => true
  | _ => false

def dropsInfo : Action → Bool
  | .logoutUser answered => answered
  | .deleteAccount => true
  | _ => false

end Action

/-- The storage of a browser after a run of actions. -/
def storageAfter (run : List Action) : Storage := replay Action.script run

/-- JavaScript truth value of what `getItem` returns. -/
def truthy : Option PyStr → Bool
  | none => false
  | some s => !s.isEmpty

theorem truthy_some_iff (s : PyStr) : truthy (some s) = true ↔ s ≠ [] := by
  simp [truthy]

def dashboardGate (s : Storage) : Bool := truthy (s .isLoggedIn) && truthy (s .userName)

def visualizationGate (s : Storage) : Bool := truthy (s .userId)

/-- `value || 'Unknown'`. -/
def orUnknown (x : Option PyStr) : PyStr := if truthy x then x.getD [] else py "Unknown"

structure Shown where
  admitted : Bool
  id : PyStr
  name : PyStr
  adminSection : Bool
  deriving DecidableEq

/-- What the dashboard page shows. -/
def dashboard (s : Storage) : Shown where
  admitted := dashboardGate s
  id := orUnknown (s .userId)
  name := orUnknown (s .userName)
  adminSection := s .userRole = some (py "admin")

/-- Nothing of a session is left. -/
structure SignedOut (s : Storage) : Prop where
  dashboard : dashboardGate s = false
  visualization : visualizationGate s = false
  empty : ∀ k, s k = none

theorem signedOut_iff_empty (s : Storage) : SignedOut s ↔ ∀ k, s k = none := by
  refine ⟨SignedOut.empty,fun h => ⟨?_,?_,h⟩⟩
  · rw [dashboardGate,h]
    rfl
  · rw [visualizationGate,h]
    rfl

/-! Which actions assign and which remove a key. -/

def Key.assignedBy : Key → Action → Bool
  | .userId | .userName => Action.logsIn
  | .userRole | .isLoggedIn => Action.storesRole
  | .userInfo => Action.storesInfo

/-- Nothing ever removes the role. -/
def Key.removedBy : Key → Action → Bool
  | .userId | .userName | .isLoggedIn => Action.isLogout
  | .userRole => fun _ => false
  | .userInfo => Action.dropsInfo

private theorem assigns_script (k : Key) : assigns Action.script k = k.assignedBy := by
  funext a
  cases k <;> rcases a with ⟨_ | _,_⟩ | _ | (_ | _) | _ | _ <;> rfl

private theorem removes_script (k : Key) : removes Action.script k = k.removedBy := by
  funext a
  cases k <;> rcases a with ⟨_ | _,_⟩ | _ | (_ | _) | _ | _ <;> rfl

theorem storageAfter_eq_none_iff (run : List Action) (k : Key) :
    storageAfter run k = none ↔ followed k.assignedBy k.removedBy run = true := by
  rw [← assigns_script,← removes_script]
  exact replay_eq_none_iff Action.script k run

/-- The storage is empty exactly when no login has stored a role, every login is followed by a
`logout()`, and everything `dashboard.js` has stored is followed by one of its own removals. -/
theorem storageAfter_empty_iff (run : List Action) :
    (∀ k, storageAfter run k = none) ↔ run.all (fun a => !a.storesRole) = true ∧
      followed Action.logsIn Action.isLogout run = true ∧ followed Action.storesInfo Action.dropsInfo run = true := by
  rw [← followed_never]
  constructor
  · intro h
    exact ⟨(storageAfter_eq_none_iff run .userRole).mp (h _),(storageAfter_eq_none_iff run .userId).mp (h _),
      (storageAfter_eq_none_iff run .userInfo).mp (h _)⟩
  · rintro ⟨hrole,hlogin,hinfo⟩ k
    rw [storageAfter_eq_none_iff]
    cases k with
    | userId | userName => exact hlogin
    | userRole => exact hrole
    | isLoggedIn =>
      refine followed_mono _ (fun a ha => ?_) hlogin
      cases a with
      | login page user => rfl
      | _ => cases ha
    | userInfo => exact hinfo

/-- A logout or a deletion is effective exactly when no login so far has stored a role, and what
this action does not remove has been removed since it was last stored. -/
theorem logout_effective_iff (run : List Action) (a : Action) (ha : a.endsSession = true) :
    SignedOut (storageAfter (run ++ [a])) ↔ run.all (fun b => !b.storesRole) = true ∧
      (a.isLogout = true ∨ followed Action.logsIn Action.isLogout run = true) ∧
      (a.dropsInfo = true ∨ followed Action.storesInfo Action.dropsInfo run = true) := by
  have hends : a.storesRole = false ∧ a.logsIn = false ∧ a.storesInfo = false := by
    cases a with
    | login | fetchUserInfoFromServer => cases ha
    | logout | logoutUser | deleteAccount => exact ⟨rfl,rfl,rfl⟩
  rw [signedOut_iff_empty,storageAfter_empty_iff,followed_snoc,followed_snoc,List.all_append]
  simp [hends]

def visitor : User := ⟨py "6f1c2d3e-4b5a-4978-8796-a5b4c3d2e1f0",py "user",some (py "admin"),by decide⟩

/-- A login that stores no role and the `logout()` of the dashboard. -/
theorem logout_after_static_login : SignedOut (storageAfter ([.login .staticLogin visitor] ++ [.logout])) :=
  (logout_effective_iff [.login .staticLogin visitor] .logout rfl).mpr ⟨rfl,.inl rfl,.inr rfl⟩

/-- `logout()` leaves the role of the admin behind. After `logoutUser()` or the deletion of the account
even the gates still admit. -/
theorem logout_not_effective :
    storageAfter [.login .publicLogin visitor,.logout] .userRole = some (py "admin") ∧
    ¬ SignedOut (storageAfter [.login .publicLogin visitor,.logout]) ∧
    dashboardGate (storageAfter [.login .publicLogin visitor,.logoutUser true]) = true ∧
    visualizationGate (storageAfter [.login .publicLogin visitor,.logoutUser true]) = true ∧
    dashboardGate (storageAfter [.login .publicLogin visitor,.deleteAccount]) = true :=
  ⟨rfl,fun h => absurd (h.empty .userRole) (by decide),by decide,by decide,by decide⟩

/-! What the dashboard shows after a login. -/

def Action.inSession : Action → Bool
  | .fetchUserInfoFromServer _ => false
  | _ => true

/-- The dashboard as it should look for a user. -/
def Shown.of (u : User) : Shown := ⟨true,u.id,u.name,u.role = some (py "admin")⟩

private theorem roleText_admin (u : User) : u.roleText = py "admin" ↔ u.role = some (py "admin") := by
  unfold User.roleText
  cases u.role with
  | none => decide
  | some role => simp

private theorem orUnknown_some {s : PyStr} (hs : s ≠ []) : orUnknown (some s) = s := by
  rw [orUnknown,if_pos ((truthy_some_iff s).mpr hs)]
  rfl

private theorem leaves_of_storesRole {page : LoginPage} (h : page.storesRole = true) (u : User) :
    leaves .isLoggedIn (Action.login page u).script = some (some (py "true")) ∧
      leaves .userRole (Action.login page u).script = some (some u.roleText) := by
  cases page with
  | publicLogin | jsLogin => exact ⟨rfl,rfl⟩
  | staticLogin | layoutsLogin => cases h

private theorem leaves_names (page : LoginPage) (u : User) :
    leaves .userId (Action.login page u).script = some (some u.id) ∧
      leaves .userName (Action.login page u).script = some (some u.name) := by
  cases page <;> exact ⟨rfl,rfl⟩

/-- The login that the stored role comes from: the last one that stores a role, unless a `logout()`
came after it. -/
def RoleOf (run : List Action) (v : User) : Prop :=
  ∃ xs page ys, run = xs ++ .login page v :: ys ∧ page.storesRole = true ∧
    ∀ a ∈ ys, a.storesRole = false ∧ a.isLogout = false

private theorem leaves_isLoggedIn (a : Action) :
    leaves .isLoggedIn a.script = none ↔ a.storesRole = false ∧ a.isLogout = false := by
  rw [leaves_eq_none_iff Action.script,assigns_script,removes_script]
  rfl

private theorem leaves_userRole {a : Action} (h : a.storesRole = false) : leaves .userRole a.script = none := by
  rw [leaves_eq_none_iff Action.script,assigns_script,removes_script]
  exact ⟨h,rfl⟩

/-- With the login flag stored, the role comes with it. -/
theorem storageAfter_isLoggedIn_iff (run : List Action) (t : PyStr) :
    storageAfter run .isLoggedIn = some t ↔ t = py "true" ∧ ∃ v, RoleOf run v := by
  rw [storageAfter,replay_eq_some_iff]
  constructor
  · rintro ⟨xs,a,ys,hrun,ha,hys⟩
    have hstores : a.storesRole = true := by
      have hassigns : assigns Action.script .isLoggedIn a = true := by rw [assigns,ha]; rfl
      rwa [assigns_script] at hassigns
    cases a with
    | login page v =>
      rw [(leaves_of_storesRole hstores v).1] at ha
      exact ⟨by simpa using ha.symm,v,xs,page,ys,hrun,hstores,fun b hb => (leaves_isLoggedIn b).mp (hys b hb)⟩
    | _ => cases hstores
  · rintro ⟨rfl,v,xs,page,ys,hrun,hstores,hys⟩
    exact ⟨xs,_,ys,hrun,(leaves_of_storesRole hstores v).1,fun b hb => (leaves_isLoggedIn b).mpr (hys b hb)⟩

theorem storageAfter_userRole {run : List Action} {v : User} (h : RoleOf run v) :
    storageAfter run .userRole = some v.roleText := by
  obtain ⟨xs,page,ys,hrun,hstores,hys⟩ := h
  rw [storageAfter,replay_eq_some_iff]
  exact ⟨xs,_,ys,hrun,(leaves_of_storesRole hstores v).2,fun b hb => leaves_userRole (hys b hb).1⟩

/-- Between sessions `dashboard.js` only writes a key of its own, which the page does not read. -/
private theorem dashboard_frame (run : List Action) {rest : List Action} (hrest : ∀ a ∈ rest, a.inSession = false) :
    dashboard (storageAfter (run ++ rest)) = dashboard (storageAfter run) := by
  have hkeep : ∀ k, k ≠ .userInfo → storageAfter (run ++ rest) k = storageAfter run k := by
    intro k hk
    apply replay_frame
    intro a ha
    have hout := hrest a ha
    cases a with
    | fetchUserInfoFromServer text => simp [Action.script,leaves,Command.leaves,Ne.symm hk]
    | _ => cases hout
  simp only [dashboard,dashboardGate,hkeep _ (by decide : Key.userId ≠ .userInfo),
    hkeep _ (by decide : Key.userName ≠ .userInfo),hkeep _ (by decide : Key.userRole ≠ .userInfo),
    hkeep _ (by decide : Key.isLoggedIn ≠ .userInfo)]

/-- Id and name are always those of the last login; the gate and the panel depend on two other keys. -/
private theorem dashboard_login_iff (run : List Action) (page : LoginPage) {u : User} (hname : u.name ≠ []) :
    dashboard (storageAfter (run ++ [.login page u])) = Shown.of u ↔
      truthy (storageAfter (run ++ [.login page u]) .isLoggedIn) = true ∧
      (storageAfter (run ++ [.login page u]) .userRole = some (py "admin") ↔ u.role = some (py "admin")) := by
  have hid : storageAfter (run ++ [.login page u]) .userId = some u.id := by
    rw [storageAfter,replay_snoc,(leaves_names page u).1]
    rfl
  have hnames : storageAfter (run ++ [.login page u]) .userName = some u.name := by
    rw [storageAfter,replay_snoc,(leaves_names page u).2]
    rfl
  simp only [dashboard,dashboardGate,hid,hnames,(truthy_some_iff _).mpr hname,orUnknown_some u.id_ne_nil,orUnknown_some hname,
    Bool.and_true,Shown.of,Shown.mk.injEq,true_and,decide_eq_decide]

/-- After a login, and until the next action of a session, the dashboard shows that user exactly
when the login page stores the role itself, or the flag of an earlier login is still there and
that user was an admin just if this one is. -/
theorem dashboard_reflects_iff (run : List Action) (page : LoginPage) (u : User) (rest : List Action)
    (hname : u.name ≠ []) (hrest : ∀ a ∈ rest, a.inSession = false) :
    dashboard (storageAfter (run ++ .login page u :: rest)) = Shown.of u ↔
      page.storesRole = true ∨
        ∃ v, RoleOf run v ∧ (v.role = some (py "admin") ↔ u.role = some (py "admin")) := by
  have hsplit : run ++ .login page u :: rest = (run ++ [.login page u]) ++ rest := by simp
  rw [hsplit,dashboard_frame _ hrest,dashboard_login_iff run page hname]
  simp only [storageAfter,replay_snoc]
  cases hpage : page.storesRole with
  | true =>
    simp only [(leaves_of_storesRole hpage u),Option.getD_some,Option.some.injEq,roleText_admin]
    simp [(truthy_some_iff _).mpr (by decide : py "true" ≠ [])]
  | false =>
    have hstores : (Action.login page u).storesRole = false := hpage
    rw [(leaves_isLoggedIn _).mpr ⟨hstores,rfl⟩,leaves_userRole hstores]
    simp only [Option.getD_none,Bool.false_eq_true,false_or]
    constructor
    · rintro ⟨hflag,hrole⟩
      cases hstored : storageAfter run .isLoggedIn with
      | none =>
        rw [← storageAfter,hstored] at hflag
        cases hflag
      | some t =>
        obtain ⟨-,v,hv⟩ := (storageAfter_isLoggedIn_iff run t).mp hstored
        rw [← storageAfter,storageAfter_userRole hv,Option.some.injEq,roleText_admin] at hrole
        exact ⟨v,hv,hrole⟩
    · rintro ⟨v,hv,hrole⟩
      rw [← storageAfter,(storageAfter_isLoggedIn_iff run _).mpr ⟨rfl,v,hv⟩,storageAfter_userRole hv]
      refine ⟨rfl,?_⟩
      rwa [Option.some.injEq,roleText_admin]

def guest : User := ⟨py "00000000-0000-4000-8000-000000000007",py "guest",some (py "normal"),by decide⟩

/-- The full login page replaces everything the last visitor has left. -/
theorem dashboard_after_full_login :
    dashboard (storageAfter ([.login .publicLogin visitor,.logout] ++ .login .jsLogin guest :: [])) = Shown.of guest :=
  (dashboard_reflects_iff [.login .publicLogin visitor,.logout] .jsLogin guest [] (by decide) (by simp)).mpr (.inl rfl)

/-- The other pages do not: without a stored flag the gate refuses a user who has just logged in, and
with the flag of an admin the panel of the admin is shown to a normal user. -/
theorem dashboard_shows_stale_session :
    (dashboard (storageAfter [.login .staticLogin guest])).admitted = false ∧
    dashboard (storageAfter [.login .publicLogin visitor,.logoutUser true,.login .staticLogin guest]) =
      ⟨true,guest.id,guest.name,true⟩ ∧
    guest.role ≠ some (py "admin") := by decide

end Thintuit.Client
