import Thintuit.Client.Forms
import Thintuit.Client.LocalStorage
import Thintuit.Server.Identity
import Thintuit.Server.PasswordInForce

/-! Registration through one page and login through the other. The first sends the email
in lower case and the second as typed; the server looks it up as it comes. -/
namespace Thintuit.Client
open Server

/-- pydantic keeps the local part of an address as it is and reads the domain in lower case. -/
structure EmailStrLaws (rt : Runtime) : Prop where
  name_kept : ∀ (a : Address) email, rt.emailStr (.str a.text) = some email → ∃ domain, email = a.name ++ 64 :: domain
  domain_lowered : ∀ a b : Address, a.name = b.name → a.domain.map asciiLower = b.domain.map asciiLower →
    rt.emailStr (.str a.text) = rt.emailStr (.str b.text)

section Reference
open Server.Reference

private theorem emailStr_text (a : Address) : reference.emailStr (.str a.text) =
    if 46 ∈ a.domain.map asciiLower then some (a.name ++ 64 :: a.domain.map asciiLower) else none := by
  have hdot : 46 ∈ a.domain.map asciiLower ↔ 46 ∈ a.domain := by
    simp [List.mem_map,asciiLower_eq_iff (show alphanumeric 46 = false from rfl)]
  have hvisible : a.text.all (fun c => 33 ≤ c.val && c.val ≤ 126) = true := by
    simpa using a.visible
  have hname : a.text.takeWhile (fun c => c ≠ 64) = a.name := localPart_append a.at_not_mem_name a.domain
  have hdomain : (a.text.dropWhile (fun c => c ≠ 64)).drop 1 = a.domain := by
    rw [Address.text,dropWhile_append a.at_not_mem_name]
    rfl
  simp only [reference,emailStr,hname,hdomain,hvisible,hdot]
  simp [a.name_ne_nil,a.at_not_mem_domain]

theorem emailStrLaws : EmailStrLaws reference where
  name_kept a email h := by
    rw [emailStr_text] at h
    split at h
    · exact ⟨_,(Option.some.inj h).symm⟩
    · cases h
  domain_lowered a b hname hdomain := by rw [emailStr_text,emailStr_text,hname,hdomain]

end Reference

variable {rt : Runtime} {cookies cookies' : List (PyStr × PyStr)} {name email password : PyStr}

private theorem registerUser_registers (user : UserCreate) :
    (registerUser cookies name email password).registers rt = some user ↔
      rt.strField (.str (trim name)) = some user.name ∧
      rt.emailStr (.str ((trim email).map asciiLower)) = some user.email ∧
      rt.strField (.str password) = some user.password := by
  rw [registers_iff]
  obtain ⟨n,e,p⟩ := user
  have hend : (registerUser cookies name email password).endpoint = some .registerUser := rfl
  have hvalid : UserCreate.validate rt (registerUser cookies name email password).body =
      (do return ⟨← rt.strField (.str (trim name)),← rt.emailStr (.str ((trim email).map asciiLower)),
        ← rt.strField (.str password)⟩) := rfl
  simp [hend,hvalid,Option.bind_eq_some_iff]

private theorem loginUser_logsIn (user : UserLogin) :
    (loginUser cookies email password).logsIn rt = some user ↔
      rt.emailStr (.str email) = some user.email ∧ rt.strField (.str password) = some user.password := by
  rw [logsIn_iff]
  obtain ⟨e,p⟩ := user
  have hend : (loginUser cookies email password).endpoint = some .loginUser := rfl
  have hvalid : UserLogin.validate rt (loginUser cookies email password).body =
      (do return ⟨← rt.emailStr (.str email),← rt.strField (.str password)⟩) := rfl
  simp [hend,hvalid,Option.bind_eq_some_iff]

private theorem loggedIn_email {r r' : Row} (h : loggedIn rt r = loggedIn rt r') : r.email = r'.email := by
  simp [loggedIn,ok] at h
  exact h.2.2.1

section Pages
variable {s : Store} {address : Address} {row : Row} {log : Turn}

/-- What an accepted registration leaves: a row for the lower-cased address, with a hash of the password. -/
private theorem registered_row {reg : Turn} (hreq : reg.call.request = registerUser cookies name address.text password)
    (hs : (reg.run rt s).1.success = true) :
    ∃ row p b salt, (reg.run rt s).1 = registered rt row.userId ∧ row ∈ (reg.run rt s).2.users.rows ∧
      rt.emailStr (.str address.lower.text) = some row.email ∧ row.email.all Runtime.storable = true ∧
      rt.strField (.str password) = some p ∧ encode p = .ok b ∧ rt.hashpw b salt = .ok row.password := by
  have hrun : reg.run rt s = ((reg.run rt s).1,(reg.run rt s).2) := rfl
  have hend : reg.call.request.endpoint = some .registerUser := by rw [hreq]; rfl
  obtain ⟨es,hpath,-,-⟩ := run_trace hrun
  obtain ⟨user,hu⟩ := registers_of_success hend hpath hs
  obtain ⟨h,k,hregistering,hresp,hfits,-,-,hrows,-⟩ := run_registerUser hrun hu hs
  have hemailEnd := registers_email_end hu
  rw [hreq,registerUser_registers,address.trim_text,address.map_text] at hu
  obtain ⟨b,hb,hh⟩ := hashText_eq_ok hregistering.hashed
  have htake : (newRow (reg.choices k) user.name user.email h).email = user.email := hfits.take_email hemailEnd
  refine ⟨newRow (reg.choices k) user.name user.email h,user.password,b,_,hresp,?_,?_,?_,hu.2.2,hb,hh⟩
  · rw [hrows]
    exact List.mem_append_right _ List.mem_cons_self
  · rw [htake]
    exact hu.2.1
  · rw [htake]
    exact hfits.email_storable

/-- A login that names the row has sent the local part the row was registered with. -/
private theorem name_lower_of_login (he : EmailStrLaws rt) (hemail : rt.emailStr (.str address.lower.text) = some row.email)
    (hlog : log.call.request = loginUser cookies address.text password) (hanswer : (log.run rt s).1 = loggedIn rt row) :
    address.name.map asciiLower = address.name := by
  have hrun : log.run rt s = ((log.run rt s).1,(log.run rt s).2) := rfl
  have hs : (log.run rt s).1.success = true := by rw [hanswer]; rfl
  obtain ⟨es,hpath,-,-⟩ := run_trace hrun
  obtain ⟨login,hlogin⟩ := logsIn_of_success (by rw [hlog]; rfl) hpath hs
  obtain ⟨found,hfound,-,hresp,-⟩ := run_loginUser hrun hlogin hs
  rw [hlog,loginUser_logsIn] at hlogin
  have hsame : login.email = row.email := by
    rw [← ((Users.findByEmail_eq_some_iff _ _ _).mp hfound).2]
    exact loggedIn_email (hresp.symm.trans hanswer)
  obtain ⟨d,hd⟩ := he.name_kept address _ hlogin.1
  obtain ⟨d',hd'⟩ := he.name_kept address.lower _ hemail
  have hparts := congrArg Address.localPart (hd'.symm.trans (hsame.symm.trans hd))
  rwa [localPart_append address.lower.at_not_mem_name,localPart_append address.at_not_mem_name] at hparts

/-- With a lower-case local part both pages send the same address to the server's eyes. -/
private theorem emailStr_lower (he : EmailStrLaws rt) (hname : address.name.map asciiLower = address.name) :
    rt.emailStr (.str address.text) = rt.emailStr (.str address.lower.text) := by
  apply he.domain_lowered
  · exact hname.symm
  · simp only [Address.lower,List.map_map]
    exact List.map_congr_left (fun c _ => (asciiLower_asciiLower c).symm)

end Pages

/-- An account registered through the form can be logged into with what was typed there, exactly
when the email has no capital letter before its `@`. -/
theorem login_after_registration_iff (hl : BcryptLaws rt) (he : EmailStrLaws rt) (s : Store) (reg : Turn)
    (hreg : registrationForm cookies name email password = some reg.call.request)
    (hs : (reg.run rt s).1.success = true) :
    ∃ row, (reg.run rt s).1 = registered rt row.userId ∧ (reg.run rt s).2.users.findById row.userId = some row ∧
      ∃ request, loginForm cookies' email password = some request ∧
        ∀ log : Turn, log.call.request = request → (∀ k, log.fault k = none) →
          ((log.run rt (reg.run rt s).2).1 = loggedIn rt row ↔
            ∀ c ∈ Address.localPart (emailValue email), capital c = false) := by
  obtain ⟨⟨address,haddr⟩,hpw,hreq⟩ := registrationForm_eq_some hreg
  obtain ⟨htext,hname⟩ := Address.parse_eq_some haddr
  rw [htext] at hreq
  obtain ⟨row,p,b,salt,hresp,hmem,hemail,hstorable,hp,hb,hh⟩ := registered_row hreq hs
  refine ⟨row,hresp,(Users.findById_eq_some_iff _ _ _).mpr ⟨hmem,rfl⟩,
    loginUser cookies' (emailValue email) (textValue password),if_pos ⟨by rw [haddr]; rfl,hpw⟩,fun log hlog hfault => ?_⟩
  rw [htext] at hlog
  rw [← hname,← map_asciiLower_eq_self_iff]
  constructor
  · exact name_lower_of_login he hemail hlog
  · intro hlower
    have hlogin : log.call.request.logsIn rt = some ⟨row.email,p⟩ := by
      rw [hlog,loginUser_logsIn,emailStr_lower he hlower]
      exact ⟨hemail,hp⟩
    have hvalid : loginUser.validPassword rt p row.password = .ok true :=
      (validPassword_hash_iff hl hb hh p).mpr ⟨b,b,hb,hb,rfl⟩
    have hanswer : log.run rt (reg.run rt s).2 = (loggedIn rt row,(reg.run rt s).2) := run_loginUser_of_valid hfault hlogin
      ((Users.findByEmail_eq_some_iff _ _ _).mpr ⟨hmem,rfl⟩) hstorable hvalid
    rw [hanswer]

open Server.Reference

def registration (email : String) : Turn :=
  ⟨⟨registerUser [] (textValue (py "user")) (emailValue (py email)) (textValue (py "secret1")),saltOf "secret1",7,1⟩,
    fun _ => none⟩

def login (email : String) : Turn :=
  ⟨⟨loginUser [] (emailValue (py email)) (textValue (py "secret1")),[],0,2⟩,fun _ => none⟩

/-- Capitals in the domain do no harm. -/
theorem login_with_capital_domain :
    ((login "new.user@Example.COM").run reference ((registration "new.user@Example.COM").run reference store).2).1.success =
      true := by
  have hreg : registrationForm [] (py "user") (py "new.user@Example.COM") (py "secret1") =
      some (registration "new.user@Example.COM").call.request := if_pos (by decide +kernel)
  have hlog : loginForm [] (py "new.user@Example.COM") (py "secret1") =
      some (login "new.user@Example.COM").call.request := if_pos (by decide +kernel)
  obtain ⟨row,-,-,request,hform,hiff⟩ := login_after_registration_iff bcryptLaws emailStrLaws store
    (registration "new.user@Example.COM") hreg (by decide +kernel)
  have hrequest := Option.some.inj (hlog.symm.trans hform)
  have hlower : (Address.localPart (emailValue (py "new.user@Example.COM"))).all (fun c => !capital c) = true := by
    decide +kernel
  have hanswer := (hiff _ hrequest (fun _ => rfl)).mpr (by simpa only [List.all_eq_true,Bool.not_eq_true_eq_eq_false] using hlower)
  rw [hanswer]
  rfl

/-- Capitals before the `@` lock the account that has just been registered. -/
theorem login_with_capital_name :
    registrationForm [] (py "user") (py "New.User@example.com") (py "secret1") =
      some (registration "New.User@example.com").call.request ∧
    loginForm [] (py "New.User@example.com") (py "secret1") = some (login "New.User@example.com").call.request ∧
    ((registration "New.User@example.com").run reference store).1.success = true ∧
    ((login "New.User@example.com").run reference ((registration "New.User@example.com").run reference store).2).1.status =
      400 :=
  ⟨if_pos (by decide +kernel),if_pos (by decide +kernel),by decide +kernel,by decide +kernel⟩

/-! What the login page does with the answer. -/

/-- `data.user` of an answer. -/
def answeredUser (resp : Response) : Option User :=
  match resp.content with
  | .json (.obj data) =>
    match data.lookup (py "user") with
    | some (.obj user) =>
      match user.lookup (py "id"), user.lookup (py "name"), user.lookup (py "role") with
      | some (.str id), some (.str name), some (.str role) => if h : id ≠ [] then some ⟨id,name,some role,h⟩ else none
      | some (.str id), some (.str name), some .null => if h : id ≠ [] then some ⟨id,name,none,h⟩ else none
      | _, _, _ => none
    | _ => none
  | _ => none

/-- The storage once `loginUser` of the login page has dealt with an answer. -/
def storeAnswer (resp : Response) (storage : Storage) : Storage :=
  match answeredUser resp with
  | some user =>
    if 200 ≤ resp.status ∧ resp.status < 300 then KeyValue.execute (LoginPage.publicLogin.loginUser user) storage
    else storage
  | none => storage

theorem answeredUser_loggedIn (row : Row) (hid : rt.uuidStr row.userId ≠ []) :
    answeredUser (loggedIn rt row) = some ⟨rt.uuidStr row.userId,row.name,row.role,hid⟩ := by
  obtain ⟨i,name,email,password,createdAt,role⟩ := row
  cases role with
  | none => exact dif_pos hid
  | some role => exact dif_pos hid

theorem dashboardGate_storeAnswer {resp : Response} (hs : resp.success = true) {user : User}
    (h : answeredUser resp = some user) (storage : Storage) :
    dashboardGate (storeAnswer resp storage) = true ↔ user.name ≠ [] := by
  have hstatus : resp.status = 200 := by simpa [Response.success] using hs
  have hstore : storeAnswer resp storage = KeyValue.execute (LoginPage.publicLogin.loginUser user) storage := by
    rw [storeAnswer,h,hstatus]
    rfl
  have hname : storeAnswer resp storage .userName = some user.name := by rw [hstore]; rfl
  have hflag : storeAnswer resp storage .isLoggedIn = some (py "true") := by rw [hstore]; rfl
  rw [dashboardGate,hname,hflag,Bool.and_eq_true,truthy_some_iff,truthy_some_iff]
  exact and_iff_right (by decide)

/-- The answer to a login of an account that is still in the table carries the name of its row. -/
private theorem answeredUser_name (hround : UuidRoundTrip rt) (hid : ∀ i, rt.uuidStr i ≠ []) {s : Store} {i : Uuid}
    {row : Row} (hrow : s.users.findById i = some row) {log : Turn} (hend : log.call.request.endpoint = some .loginUser)
    (hs : (log.run rt s).1.success = true) {user : User} (huser : answeredUser (log.run rt s).1 = some user)
    (hsame : user.id = rt.uuidStr i) : user.name = row.name := by
  have hrun : log.run rt s = ((log.run rt s).1,(log.run rt s).2) := rfl
  obtain ⟨es,hpath,-,-⟩ := run_trace hrun
  obtain ⟨login,hlogin⟩ := logsIn_of_success hend hpath hs
  obtain ⟨found,hfound,-,hresp,-⟩ := run_loginUser hrun hlogin hs
  rw [hresp,answeredUser_loggedIn found (hid _)] at huser
  obtain rfl := Option.some.inj huser
  obtain ⟨hmem,-⟩ := (Users.findByEmail_eq_some_iff _ _ _).mp hfound
  have hfoundId : s.users.findById i = some found :=
    (Users.findById_eq_some_iff _ _ _).mpr ⟨hmem,hround.injective hsame⟩
  obtain rfl : row = found := Option.some.inj (hrow.symm.trans hfoundId)
  rfl

/-- An account registered through the form is usable: while it exists, the dashboard admits it after
a login through the login page, exactly when the name holds something besides whitespace. -/
theorem registered_account_usable_iff (hround : UuidRoundTrip rt) (hid : ∀ i, rt.uuidStr i ≠ [])
    (hstr : ∀ s t, rt.strField (.str s) = some t → t = s) (s : Store) (reg : Turn)
    (hreg : registrationForm cookies name email password = some reg.call.request)
    (hs : (reg.run rt s).1.success = true) (mid : List Turn)
    (hkept : ∀ x ∈ history rt (reg.run rt s).2 mid, deletedId rt reg.call.newId x = false)
    (log : Turn) (email' password' : PyStr) (hlog : loginForm cookies' email' password' = some log.call.request)
    (hls : (log.run rt (after rt (reg.run rt s).2 mid)).1.success = true) (user : User)
    (huser : answeredUser (log.run rt (after rt (reg.run rt s).2 mid)).1 = some user)
    (hsame : user.id = rt.uuidStr reg.call.newId) (storage : Storage) :
    dashboardGate (storeAnswer (log.run rt (after rt (reg.run rt s).2 mid)).1 storage) = true ↔
      ∃ c ∈ textValue name, jsWhitespace c = false := by
  obtain ⟨-,-,hreq⟩ := registrationForm_eq_some hreg
  have hend : reg.call.request.endpoint = some .registerUser := by rw [hreq]; rfl
  obtain ⟨es,hpath,-,-⟩ := run_trace (rfl : reg.run rt s = ((reg.run rt s).1,(reg.run rt s).2))
  obtain ⟨account,haccount⟩ := registers_of_success hend hpath hs
  obtain ⟨-,row,hrow,-,hname⟩ := registration_row haccount hs
  obtain ⟨password'',hlater⟩ := session_keeps hrow mid hkept
  rw [hreq,registerUser_registers] at haccount
  have hlogend : log.call.request.endpoint = some .loginUser := by
    unfold loginForm at hlog
    split at hlog
    · rw [← Option.some.inj hlog]; rfl
    · cases hlog
  have huserName : user.name = (trim (textValue name)).take 100 := by
    rw [answeredUser_name hround hid hlater hlogend hls huser hsame,← hstr _ _ haccount.1]
    exact hname
  rw [dashboardGate_storeAnswer hls huser,huserName,Ne,List.take_eq_nil_iff,trim,stripped_eq_nil_iff]
  simp

theorem uuidStr_ne_nil (i : Uuid) : reference.uuidStr i ≠ [] := by
  intro h
  have hlen := congrArg List.length h
  rw [reference_uuidStr,uuidStr,length_dashed] at hlen
  simp at hlen

theorem strField_eq (s t : PyStr) (h : reference.strField (.str s) = some t) : t = s := by
  simp only [reference,strField] at h
  split at h
  · cases h
  · exact (Option.some.inj h).symm

/-- What the server answers for the account of the `registration` turn. -/
def registeredUser : User := ⟨uuidStr 7,py "user",some (py "normal"),uuidStr_ne_nil 7⟩

/-- A first login after the registration, in a fresh browser. -/
theorem registered_account_admitted :
    dashboardGate (storeAnswer ((login "new.user@example.com").run reference
      (after reference ((registration "new.user@example.com").run reference store).2 [])).1 (fun _ => none)) = true := by
  have hreg : registrationForm [] (py "user") (py "new.user@example.com") (py "secret1") =
      some (registration "new.user@example.com").call.request := if_pos (by decide +kernel)
  have hlog : loginForm [] (py "new.user@example.com") (py "secret1") =
      some (login "new.user@example.com").call.request := if_pos (by decide +kernel)
  exact (registered_account_usable_iff roundTrip uuidStr_ne_nil strField_eq store (registration "new.user@example.com")
    hreg (by decide +kernel) [] (by simp [history]) (login "new.user@example.com") _ _ hlog (by decide +kernel)
    registeredUser (by decide +kernel) rfl _).mpr ⟨117,by decide,by decide⟩

/-- A registration with a space for a name. -/
def unnamed : Turn :=
  ⟨⟨registerUser [] (textValue (py " ")) (emailValue (py "new.user@example.com")) (textValue (py "secret1")),
    saltOf "secret1",7,1⟩,fun _ => none⟩

/-- The form lets the space pass, the server accepts the empty name it is trimmed to, and after a
successful login the dashboard refuses. -/
theorem blank_name_refused :
    registrationForm [] (py " ") (py "new.user@example.com") (py "secret1") = some unnamed.call.request ∧
    (unnamed.run reference store).1.success = true ∧
    ((login "new.user@example.com").run reference (unnamed.run reference store).2).1.success = true ∧
    dashboardGate (storeAnswer ((login "new.user@example.com").run reference (unnamed.run reference store).2).1
      (fun _ => none)) = false :=
  ⟨if_pos (by decide +kernel),by decide +kernel,by decide +kernel,by decide +kernel⟩

end Thintuit.Client
