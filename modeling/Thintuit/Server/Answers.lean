import Thintuit.Server.Programs

/-! What a success answer proves about the operations behind it. Each inversion
lists every exchange of a successful run of its handler, in order. -/
namespace Thintuit.Server
open Interaction Program
variable {rt : Runtime} {request : Request} {salt : Bytes}

@[simp] theorem databaseError_success (e : PyError) : (databaseError e).success = false := by
  unfold databaseError
  split <;> rfl

theorem serve_of_endpoint {endpoint : Endpoint} (h : request.endpoint = some endpoint) :
    serve rt request salt = handle direct rt request salt endpoint := by
  unfold Request.endpoint at h
  simp [serve,serveOver,h]

theorem registers_iff (user : UserCreate) :
    request.registers rt = some user ↔
      request.endpoint = some .registerUser ∧ UserCreate.validate rt request.body = some user := by
  simp [Request.registers]

/-- The email of a registration has passed pydantic's check. -/
theorem registers_email_end {user : UserCreate} (hu : request.registers rt = some user) : user.email.getLast? ≠ some 32 := by
  obtain ⟨-,hv⟩ := (registers_iff user).mp hu
  unfold UserCreate.validate at hv
  split at hv
  · obtain ⟨name,-,hv⟩ := Option.bind_eq_some_iff.mp hv
    obtain ⟨email,hemail,hv⟩ := Option.bind_eq_some_iff.mp hv
    obtain ⟨x,-,hx⟩ := Option.bind_eq_some_iff.mp hemail
    obtain ⟨password,-,hv⟩ := Option.bind_eq_some_iff.mp hv
    cases hv
    exact rt.emailStr_end hx
  · cases hv

theorem logsIn_iff (user : UserLogin) :
    request.logsIn rt = some user ↔
      request.endpoint = some .loginUser ∧ UserLogin.validate rt request.body = some user := by
  simp [Request.logsIn]

theorem deletes_iff (userId : PyStr) :
    request.deletes = some userId ↔ request.endpoint = some .deleteAccount ∧ request.userId = some userId := by
  simp [Request.deletes]

theorem changes_iff (userId : PyStr) (currentPassword newPassword : Json) :
    request.changes = some (userId,currentPassword,newPassword) ↔
      request.endpoint = some .changePassword ∧ request.userId = some userId ∧ ∃ body,
        request.body = some (.obj body) ∧ dictGet body (py "current_password") = currentPassword ∧
          dictGet body (py "new_password") = newPassword := by
  unfold Request.changes
  split
  · rename_i he
    split
    · rename_i body u hb hu
      simp only [he,hb,hu,Option.some.injEq,Prod.mk.injEq,true_and,Json.obj.injEq]
      constructor
      · rintro ⟨rfl,rfl,rfl⟩; exact ⟨rfl,body,rfl,rfl,rfl⟩
      · rintro ⟨rfl,_,rfl,rfl,rfl⟩; exact ⟨rfl,rfl,rfl⟩
    · rename_i hno
      simp only [reduceCtorEq,false_iff]
      rintro ⟨-,hu,body,hb,-⟩
      exact hno body userId hb hu
  · rename_i he
    simp [he]

/-- A success has got past every statement whose failure is answered without success. -/
theorem call_success {op : DbOp} {f : op.Reply → Program DbOp DbOp.Reply Response} {es : List (Exchange DbOp DbOp.Reply)}
    {resp : Response} (hp : Path (.call op f) es (.ret resp)) (hs : resp.success = true)
    (herror : ∀ e, ∃ resp', f (.error e) = .ret resp' ∧ resp'.success = false) :
    ∃ v rest, es = ⟨op,.ok v⟩ :: rest ∧ Path (f (.ok v)) rest (.ret resp) := by
  cases hp with | @call _ _ r rest _ hp =>
  cases r with
  | error e =>
    obtain ⟨resp',he,hf⟩ := herror e
    rw [he] at hp
    cases hp
    rw [hf] at hs
    cases hs
  | ok v => exact ⟨v,rest,rfl,hp⟩

theorem registerUser_success {user : UserCreate} {es : List (Exchange DbOp DbOp.Reply)} {resp : Response}
    (hu : request.registers rt = some user) (hp : Path (serve rt request salt) es (.ret resp))
    (hs : resp.success = true) :
    ∃ h r, Registering rt request salt user h ∧ resp = registered rt r.1 ∧
      es = [⟨.acquire,.ok ()⟩,⟨.fetchEmailByEmail user.email,.ok none⟩,
        ⟨.insertUser user.name user.email h,.ok r⟩] := by
  obtain ⟨he,hv⟩ := (registers_iff user).mp hu
  rw [serve_of_endpoint he,handle,hv] at hp
  dsimp only at hp
  by_cases hr : ∃ p, Registering rt request salt user p
  · obtain ⟨h,hr⟩ := hr
    rw [respond_registerUser rt request salt hr] at hp
    obtain ⟨_,es,rfl,hp₁⟩ := call_success hp hs (fun e => ⟨_,rfl,rfl⟩)
    obtain ⟨existing,es,rfl,hp₂⟩ := call_success hp₁ hs (fun e => ⟨_,rfl,databaseError_success e⟩)
    cases existing with
    | some email => cases hp₂; cases hs
    | none =>
      obtain ⟨r,es,rfl,hp₃⟩ := call_success hp₂ hs (fun e => ⟨_,rfl,databaseError_success e⟩)
      cases hp₃
      exact ⟨_,r,hr,rfl,rfl⟩
  · obtain ⟨resp',he',hf⟩ := respond_registerUser_refused rt request salt user (fun p hp => hr ⟨p,hp⟩)
    rw [he'] at hp
    cases hp
    rw [hf] at hs
    cases hs

theorem loginUser_success {user : UserLogin} {es : List (Exchange DbOp DbOp.Reply)} {resp : Response}
    (hu : request.logsIn rt = some user) (hp : Path (serve rt request salt) es (.ret resp))
    (hs : resp.success = true) :
    ∃ row, loginUser.validPassword rt user.password row.password = .ok true ∧ resp = loggedIn rt row ∧
      es = [⟨.acquire,.ok ()⟩,⟨.fetchByEmail user.email,.ok (some row)⟩] := by
  obtain ⟨he,hv⟩ := (logsIn_iff user).mp hu
  rw [serve_of_endpoint he,handle,hv] at hp
  dsimp only at hp
  rw [respond_loginUser] at hp
  obtain ⟨_,es,rfl,hp₁⟩ := call_success hp hs (fun e => ⟨_,rfl,rfl⟩)
  obtain ⟨found,es,rfl,hp₂⟩ := call_success hp₁ hs (fun e => ⟨_,rfl,rfl⟩)
  cases found with
  | none => cases hp₂; cases hs
  | some row =>
    dsimp only at hp₂
    split at hp₂
    · split at hp₂ <;> cases hp₂ <;> cases hs
    · cases hp₂; cases hs
    · rename_i hvalid
      cases hp₂
      exact ⟨row,hvalid,rfl,rfl⟩

theorem getUserInfo_success {es : List (Exchange DbOp DbOp.Reply)} {resp : Response}
    (he : request.endpoint = some .getUserInfo) (hp : Path (serve rt request salt) es (.ret resp))
    (hs : resp.success = true) :
    ∃ userId row, request.userId = some userId ∧ resp = userInfo rt row ∧
      es = [⟨.acquire,.ok ()⟩,⟨.fetchById userId,.ok (some row)⟩] := by
  rw [serve_of_endpoint he,handle] at hp
  cases hu : request.userId with
  | none =>
    rw [respond_getUserInfo_refused rt request hu] at hp
    cases hp; cases hs
  | some userId =>
    rw [respond_getUserInfo rt request hu] at hp
    obtain ⟨_,es,rfl,hp₁⟩ := call_success hp hs (fun e => ⟨_,rfl,rfl⟩)
    obtain ⟨found,es,rfl,hp₂⟩ := call_success hp₁ hs (fun e => ⟨_,rfl,rfl⟩)
    cases found with
    | none => cases hp₂; cases hs
    | some row =>
      cases hp₂
      exact ⟨userId,row,rfl,rfl,rfl⟩

theorem listAllUsers_success {es : List (Exchange DbOp DbOp.Reply)} {resp : Response}
    (he : request.endpoint = some .listAllUsers) (hp : Path (serve rt request salt) es (.ret resp))
    (hs : resp.success = true) :
    ∃ userId row rows, request.userId = some userId ∧ row.role = some (py "admin") ∧ resp = userList rt rows ∧
      es = [⟨.acquire,.ok ()⟩,⟨.fetchById userId,.ok (some row)⟩,⟨.acquire,.ok ()⟩,⟨.fetchUsers,.ok rows⟩] := by
  rw [serve_of_endpoint he,handle] at hp
  cases hu : request.userId with
  | none =>
    rw [respond_listAllUsers_refused rt request hu] at hp
    cases hp; cases hs
  | some userId =>
    rw [respond_listAllUsers rt request hu] at hp
    obtain ⟨_,es,rfl,hp₁⟩ := call_success hp hs (fun e => ⟨_,rfl,rfl⟩)
    obtain ⟨found,es,rfl,hp₂⟩ := call_success hp₁ hs (fun e => ⟨_,rfl,rfl⟩)
    cases found with
    | none => cases hp₂; cases hs
    | some row =>
      dsimp only at hp₂
      split at hp₂
      · cases hp₂; cases hs
      rename_i hrole
      obtain ⟨_,es,rfl,hp₃⟩ := call_success hp₂ hs (fun e => ⟨_,rfl,rfl⟩)
      obtain ⟨rows,es,rfl,hp₄⟩ := call_success hp₃ hs (fun e => ⟨_,rfl,rfl⟩)
      cases hp₄
      exact ⟨userId,row,rows,rfl,by simpa using hrole,rfl,rfl⟩

theorem changePassword_success {userId : PyStr} {currentPassword newPassword : Json}
    {es : List (Exchange DbOp DbOp.Reply)} {resp : Response}
    (hc : request.changes = some (userId,currentPassword,newPassword))
    (hp : Path (serve rt request salt) es (.ret resp)) (hs : resp.success = true) :
    ∃ row h n, changePassword.validPassword rt currentPassword row.password = .ok true ∧
      hashText rt newPassword.encode salt = .ok h ∧ (∃ k, newPassword.len = .ok k ∧ 6 ≤ k) ∧
      resp = passwordChanged ∧ es = [⟨.acquire,.ok ()⟩,⟨.fetchById userId,.ok (some row)⟩,⟨.updatePassword h userId,.ok n⟩] := by
  obtain ⟨he,hu,body,hb,hcur,hnew⟩ := (changes_iff _ _ _).mp hc
  rw [serve_of_endpoint he,handle,hb] at hp
  dsimp only at hp
  by_cases hr : ∃ u c n, Changing request body u c n
  · obtain ⟨u,c,n,hr⟩ := hr
    obtain rfl : userId = u := Option.some.inj (hu.symm.trans hr.userId_eq)
    obtain rfl : currentPassword = c := hcur.symm.trans hr.current_eq
    obtain rfl : newPassword = n := hnew.symm.trans hr.new_eq
    rw [respond_changePassword rt request salt hr] at hp
    obtain ⟨_,es,rfl,hp₁⟩ := call_success hp hs (fun e => ⟨_,rfl,rfl⟩)
    obtain ⟨found,es,rfl,hp₂⟩ := call_success hp₁ hs (fun e => ⟨_,rfl,rfl⟩)
    cases found with
    | none => cases hp₂; cases hs
    | some row =>
      dsimp only at hp₂
      split at hp₂
      · cases hp₂; cases hs
      · cases hp₂; cases hs
      rename_i hvalid
      split at hp₂
      · cases hp₂; cases hs
      rename_i h hhash
      obtain ⟨n,es,rfl,hp₃⟩ := call_success hp₂ hs (fun e => ⟨_,rfl,rfl⟩)
      cases hp₃
      exact ⟨row,h,n,hvalid,hhash,hr.length,rfl,rfl⟩
  · obtain ⟨resp',he',hf⟩ := respond_changePassword_refused rt request salt body (fun u c n h => hr ⟨u,c,n,h⟩)
    rw [he'] at hp
    cases hp
    rw [hf] at hs
    cases hs

theorem deleteAccount_success {userId : PyStr} {es : List (Exchange DbOp DbOp.Reply)} {resp : Response}
    (hd : request.deletes = some userId) (hp : Path (serve rt request salt) es (.ret resp))
    (hs : resp.success = true) :
    ∃ email n, resp = accountDeleted ∧
      es = [⟨.acquire,.ok ()⟩,⟨.fetchEmailById userId,.ok (some email)⟩,⟨.deleteUser userId,.ok n⟩] := by
  obtain ⟨he,hu⟩ := (deletes_iff _).mp hd
  rw [serve_of_endpoint he,handle,respond_deleteAccount request hu] at hp
  obtain ⟨_,es,rfl,hp₁⟩ := call_success hp hs (fun e => ⟨_,rfl,rfl⟩)
  obtain ⟨found,es,rfl,hp₂⟩ := call_success hp₁ hs (fun e => ⟨_,rfl,rfl⟩)
  cases found with
  | none => cases hp₂; cases hs
  | some email =>
    obtain ⟨n,es,rfl,hp₃⟩ := call_success hp₂ hs (fun e => ⟨_,rfl,rfl⟩)
    cases hp₃
    exact ⟨email,n,rfl,rfl⟩

/-! Between its check and its write a request is pending, with exactly its reads behind it. -/

theorem updatePassword_pending {userId h : PyStr} {es : List (Exchange DbOp DbOp.Reply)}
    {next : Except PyError Nat → Program DbOp DbOp.Reply Response}
    (he : request.endpoint = some .changePassword)
    (hp : Path (serve rt request salt) es (.call (.updatePassword h userId) next)) :
    ∃ row, es = [⟨.acquire,.ok ()⟩,⟨.fetchById userId,.ok (some row)⟩] := by
  rw [serve_of_endpoint he,handle] at hp
  split at hp
  · rename_i body hbody
    by_cases hr : ∃ u c n, Changing request body u c n
    · obtain ⟨u,c,n,hr⟩ := hr
      rw [respond_changePassword rt request salt hr] at hp
      cases hp with | @call _ _ r _ _ hp =>
      rcases r with e | ⟨⟩
      · cases hp
      cases hp with | @call _ _ r _ _ hp =>
      rcases r with e | (_ | row)
      · cases hp
      · cases hp
      dsimp only at hp
      split at hp
      · cases hp
      · cases hp
      split at hp
      · cases hp
      cases hp with
      | refl => exact ⟨row,rfl⟩
      | @call _ _ r _ _ hp => cases r <;> cases hp
    · obtain ⟨resp',he',-⟩ := respond_changePassword_refused rt request salt body (fun u c n h => hr ⟨u,c,n,h⟩)
      rw [he'] at hp
      cases hp
  · cases hp

theorem deleteUser_pending {userId : PyStr} {es : List (Exchange DbOp DbOp.Reply)}
    {next : Except PyError Nat → Program DbOp DbOp.Reply Response} (hd : request.deletes = some userId)
    (hp : Path (serve rt request salt) es (.call (.deleteUser userId) next)) :
    ∃ email, es = [⟨.acquire,.ok ()⟩,⟨.fetchEmailById userId,.ok (some email)⟩] := by
  obtain ⟨he,hu⟩ := (deletes_iff _).mp hd
  rw [serve_of_endpoint he,handle,respond_deleteAccount request hu] at hp
  cases hp with | @call _ _ r _ _ hp =>
  rcases r with e | ⟨⟩
  · cases hp
  cases hp with | @call _ _ r _ _ hp =>
  rcases r with e | (_ | email)
  · cases hp
  · cases hp
  cases hp with
  | refl => exact ⟨email,rfl⟩
  | @call _ _ r _ _ hp => cases r <;> cases hp

/-! A success answer also proves that the request was decoded. -/

theorem registers_of_success {es : List (Exchange DbOp DbOp.Reply)} {resp : Response}
    (he : request.endpoint = some .registerUser) (hp : Path (serve rt request salt) es (.ret resp))
    (hs : resp.success = true) : ∃ user, request.registers rt = some user := by
  cases hv : UserCreate.validate rt request.body with
  | none =>
    rw [serve_of_endpoint he,handle,hv] at hp
    cases hp; cases hs
  | some user => exact ⟨user,(registers_iff user).mpr ⟨he,hv⟩⟩

theorem logsIn_of_success {es : List (Exchange DbOp DbOp.Reply)} {resp : Response}
    (he : request.endpoint = some .loginUser) (hp : Path (serve rt request salt) es (.ret resp))
    (hs : resp.success = true) : ∃ user, request.logsIn rt = some user := by
  cases hv : UserLogin.validate rt request.body with
  | none =>
    rw [serve_of_endpoint he,handle,hv] at hp
    cases hp; cases hs
  | some user => exact ⟨user,(logsIn_iff user).mpr ⟨he,hv⟩⟩

theorem changes_of_success {es : List (Exchange DbOp DbOp.Reply)} {resp : Response}
    (he : request.endpoint = some .changePassword) (hp : Path (serve rt request salt) es (.ret resp))
    (hs : resp.success = true) :
    ∃ userId currentPassword newPassword, request.changes = some (userId,currentPassword,newPassword) := by
  rw [serve_of_endpoint he,handle] at hp
  split at hp
  · rename_i body hbody
    cases hu : request.userId with
    | some userId => exact ⟨userId,_,_,(changes_iff _ _ _).mpr ⟨he,hu,body,hbody,rfl,rfl⟩⟩
    | none =>
      obtain ⟨resp',he',hf⟩ := respond_changePassword_refused rt request salt body (fun u c n h => by
        have := h.userId_eq
        rw [hu] at this
        cases this)
      rw [he'] at hp
      cases hp
      rw [hf] at hs
      cases hs
  · cases hp; cases hs

theorem deletes_of_success {es : List (Exchange DbOp DbOp.Reply)} {resp : Response}
    (he : request.endpoint = some .deleteAccount) (hp : Path (serve rt request salt) es (.ret resp))
    (hs : resp.success = true) : ∃ userId, request.deletes = some userId := by
  cases hu : request.userId with
  | some userId => exact ⟨userId,(deletes_iff userId).mpr ⟨he,hu⟩⟩
  | none =>
    rw [serve_of_endpoint he,handle,respond_deleteAccount_refused request hu] at hp
    cases hp; cases hs

theorem endpoint_of_success {es : List (Exchange DbOp DbOp.Reply)} {resp : Response}
    (hp : Path (serve rt request salt) es (.ret resp)) (hs : resp.success = true) :
    ∃ endpoint, request.endpoint = some endpoint := by
  cases he : request.endpoint with
  | some endpoint => exact ⟨endpoint,rfl⟩
  | none =>
    unfold Request.endpoint at he
    simp only [serve,serveOver,he] at hp
    cases hp
    unfold unrouted at hs
    split at hs
    · cases hs
    · split at hs <;> cases hs

end Thintuit.Server
