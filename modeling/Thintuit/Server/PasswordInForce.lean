import Thintuit.Server.Fallback
import Thintuit.Server.Session

/-! The password in force for an account is the one last set for it. The book below is
kept from requests and answers alone; the stored hashes refine it. -/
namespace Thintuit.Server
open Interaction
variable (rt : Runtime)

/-- The two strings agree on the first 72 bytes of their encodings. -/
def Matches (p q : PyStr) : Prop := ∃ b b', encode p = .ok b ∧ encode q = .ok b' ∧ b.take 72 = b'.take 72

/-- The id a registration has returned. -/
def returnedId (resp : Response) : Option Uuid :=
  match resp.content with
  | .json (.obj fields) =>
    match dictGet fields (py "user_id") with
    | .str s => rt.uuidParam s
    | _ => none
  | _ => none

/-- The account whose password an answered request has set, with the password. -/
def passwordSet (x : Request × Response) : Option (Uuid × PyStr) :=
  if x.2.success then
    match x.1.registers rt, x.1.changes with
    | some user, _ => (returnedId rt x.2).map (fun i => (i,user.password))
    | none, some (userId,_,.str new) => (rt.uuidParam userId).map (fun i => (i,new))
    | _, _ => none
  else none

/-- For every account the password most recently set. -/
def inForce (h : List (Request × Response)) : Uuid → Option PyStr :=
  h.foldl (fun book x =>
    match passwordSet rt x with
    | some (i,q) => Function.update book i (some q)
    | none => book) (fun _ => none)

variable {rt}

theorem inForce_concat_none {h : List (Request × Response)} {x : Request × Response} (hx : passwordSet rt x = none) :
    inForce rt (h ++ [x]) = inForce rt h := by
  simp [inForce,hx]

theorem inForce_concat_some {h : List (Request × Response)} {x : Request × Response} {i : Uuid} {q : PyStr}
    (hx : passwordSet rt x = some (i,q)) : inForce rt (h ++ [x]) = Function.update (inForce rt h) i (some q) := by
  simp [inForce,hx]

theorem returnedId_registered (hround : UuidRoundTrip rt) (i : Uuid) : returnedId rt (registered rt i) = some i := by
  have hget : returnedId rt (registered rt i) = rt.uuidParam (rt.uuidStr i) := rfl
  rw [hget,hround i]

/-- A row refines the book: its hash is one of the password in force. -/
structure Refines (rt : Runtime) (h : List (Request × Response)) (row : Row) (q : PyStr) : Prop where
  inForce_eq : inForce rt h row.userId = some q
  hashed : ∃ b salt, encode q = .ok b ∧ rt.hashpw b salt = .ok row.password
  length : 6 ≤ q.length
  email_storable : row.email.all Runtime.storable = true

def Booked (rt : Runtime) (h : List (Request × Response)) (s : Store) : Prop :=
  ∀ row ∈ s.users.rows, ∃ q, Refines rt h row q

section Step
variable {turn : Turn} {s s' : Store} {resp : Response} {h : List (Request × Response)}

theorem Booked.of_none (hb : Booked rt h s) {x : Request × Response} (hx : passwordSet rt x = none) :
    Booked rt (h ++ [x]) s := by
  intro row hrow
  obtain ⟨q,hq⟩ := hb row hrow
  exact ⟨q,by rw [inForce_concat_none hx]; exact hq.inForce_eq,hq.hashed,hq.length,hq.email_storable⟩

/-- A row the answered request did not name keeps its password in force. -/
theorem Refines.of_other {row : Row} {q : PyStr} (hq : Refines rt h row q) {x : Request × Response} {i : Uuid} {p : PyStr}
    (hx : passwordSet rt x = some (i,p)) (hi : row.userId ≠ i) : Refines rt (h ++ [x]) row q := by
  refine ⟨?_,hq.hashed,hq.length,hq.email_storable⟩
  rw [inForce_concat_some hx,Function.update_of_ne hi]
  exact hq.inForce_eq

private theorem booked_register (hround : UuidRoundTrip rt) (hrun : turn.run rt s = (resp,s')) (hb : Booked rt h s)
    {user : UserCreate} (hu : turn.call.request.registers rt = some user) (hs : resp.success = true) :
    Booked rt (h ++ [(turn.call.request,resp)]) s' := by
  obtain ⟨p,k,hreg,hresp,hfits,hid,-,hrows,-⟩ := run_registerUser hrun hu hs
  obtain ⟨b,hb',hq⟩ := hashText_eq_ok hreg.hashed
  have hset : passwordSet rt (turn.call.request,resp) = some (turn.call.newId,user.password) := by
    have hret : returnedId rt resp = some turn.call.newId := by
      rw [hresp]
      exact returnedId_registered hround _
    simp [passwordSet,hs,hu,hret]
  intro row hrow
  rw [hrows] at hrow
  rcases List.mem_append.mp hrow with hrow | hrow
  · obtain ⟨q,hq⟩ := hb row hrow
    exact ⟨q,hq.of_other hset ((Users.findById_eq_none_iff _ _).mp hid row hrow)⟩
  · obtain rfl := List.mem_singleton.mp hrow
    refine ⟨user.password,?_,⟨b,_,hb',hq⟩,hreg.length,?_⟩
    · rw [inForce_concat_some hset]
      exact Function.update_self ..
    · change (user.email.take 255).all Runtime.storable = true
      rw [hfits.take_email (registers_email_end hu)]
      exact hfits.email_storable

private theorem booked_change (hrun : turn.run rt s = (resp,s')) (hb : Booked rt h s) {userId : PyStr}
    {currentPassword newPassword : Json}
    (hc : turn.call.request.changes = some (userId,currentPassword,newPassword)) (hs : resp.success = true) :
    Booked rt (h ++ [(turn.call.request,resp)]) s' := by
  obtain ⟨i,row₀,p,hi,-,-,hhash,⟨k,hk,h6⟩,rfl⟩ := run_changePassword hrun hc hs
  obtain ⟨b,hb',hq⟩ := hashText_eq_ok hhash
  cases newPassword with
  | str new =>
    obtain rfl : new.length = k := Except.ok.inj hk
    have hr : turn.call.request.registers rt = none := by simp [Request.registers,((changes_iff _ _ _).mp hc).1]
    have hset : passwordSet rt (turn.call.request,resp) = some (i,new) := by simp [passwordSet,hs,hr,hc,hi]
    intro row hrow
    obtain ⟨r,hr,rfl⟩ := List.mem_map.mp hrow
    obtain ⟨q,hq'⟩ := hb r hr
    by_cases hri : r.userId = i
    · refine ⟨new,?_,⟨b,turn.call.salt,hb',?_⟩,h6,?_⟩
      · rw [inForce_concat_some hset,Users.setPasswordRow_userId,hri]
        exact Function.update_self ..
      · simpa [Users.setPasswordRow,hri] using hq
      · simpa using hq'.email_storable
    · have hsame : Users.setPasswordRow i p r = r := by simp [Users.setPasswordRow,hri]
      rw [hsame]
      exact ⟨q,hq'.of_other hset hri⟩
  | _ => cases hb'

/-- Only registration and change-password set a password. -/
theorem passwordSet_none {request : Request} {endpoint : Endpoint} (he : request.endpoint = some endpoint)
    (hr : endpoint ≠ .registerUser) (hc : endpoint ≠ .changePassword) : passwordSet rt (request,resp) = none := by
  simp [passwordSet,Request.registers,Request.changes,he,hr,hc]

/-- Every turn keeps the table in step with the book. -/
theorem booked_step (hround : UuidRoundTrip rt) (hrun : turn.run rt s = (resp,s')) (hb : Booked rt h s) :
    Booked rt (h ++ [(turn.call.request,resp)]) s' := by
  cases hs : resp.success with
  | false =>
    obtain rfl := run_failure hrun hs
    exact hb.of_none (by simp [passwordSet,hs])
  | true =>
    obtain ⟨es,hpath,-,-⟩ := run_trace hrun
    obtain ⟨endpoint,he⟩ := endpoint_of_success hpath hs
    cases endpoint with
    | registerUser =>
      obtain ⟨user,hu⟩ := registers_of_success he hpath hs
      exact booked_register hround hrun hb hu hs
    | changePassword =>
      obtain ⟨userId,cur,new,hc⟩ := changes_of_success he hpath hs
      exact booked_change hrun hb hc hs
    | deleteAccount =>
      obtain ⟨userId,hd⟩ := deletes_of_success he hpath hs
      obtain ⟨i,row,-,-,rfl⟩ := run_deleteAccount hrun hd hs
      intro r hr
      exact hb.of_none (passwordSet_none he (by simp) (by simp)) r (List.mem_of_mem_filter hr)
    | _ =>
      obtain rfl := run_reading hrun he rfl
      exact hb.of_none (passwordSet_none he (by simp) (by simp))

end Step

/-- Against a hash of `q`, login and change-password accept exactly what matches `q`. -/
theorem validPassword_hash_iff (hl : BcryptLaws rt) {b salt : Bytes} {q stored : PyStr} (hq : encode q = .ok b)
    (hh : rt.hashpw b salt = .ok stored) (p : PyStr) :
    loginUser.validPassword rt p stored = .ok true ↔ Matches p q := by
  have hcheck : ∀ b', bcryptCheck rt (.ok b') stored = rt.checkpw b' (utf8 stored) := by
    intro b'
    rw [bcryptCheck,(hl.hashpw_text _ _ _ hh).encode]
    rfl
  constructor
  · intro hv
    have hbc := (onlyBcrypt_of_closed (not_fallbackOpen_hash hl.hashLaws hh)).1 p hv
    cases hp : encode p with
    | error e => rw [hp] at hbc; cases hbc
    | ok b' =>
      rw [hp,hcheck] at hbc
      exact ⟨b',b,hp,hq,(hl.checkpw_true_iff b' b salt stored hh).mp hbc⟩
  · rintro ⟨b',b'',hp,hq',htake⟩
    obtain rfl : b = b'' := Except.ok.inj (hq.symm.trans hq')
    refine (validPassword_iff _ _ _).mpr (.inl ?_)
    rw [hp,hcheck]
    exact (hl.checkpw_true_iff b' b salt stored hh).mpr htake

theorem utf8_eq_nil {s : PyStr} (h : utf8 s = []) : s = [] := by
  cases s with
  | nil => rfl
  | cons c s =>
    have hc := List.flatMap_eq_nil_iff.mp h c List.mem_cons_self
    have hlen := String.length_utf8EncodeChar (Char.ofNat c.val)
    have hpos := Char.utf8Size_pos (Char.ofNat c.val)
    rw [hc,List.length_nil] at hlen
    omega

/-- Nothing matches the empty string but itself. -/
theorem Matches.ne_nil {p q : PyStr} (h : Matches p q) (hq : q ≠ []) : p ≠ [] := by
  rintro rfl
  obtain ⟨b,b',hp,hq',htake⟩ := h
  obtain ⟨-,rfl⟩ := (encode_eq_ok_iff _ _).mp hp
  obtain ⟨-,rfl⟩ := (encode_eq_ok_iff _ _).mp hq'
  have hnil : (utf8 q).take 72 = [] := htake.symm
  rw [List.take_eq_nil_iff] at hnil
  exact hq (utf8_eq_nil (hnil.resolve_left (by omega)))

section Checks
variable {h : List (Request × Response)} {s : Store} {turn : Turn}

/-- Login accepts what matches the password in force. -/
theorem Booked.login_iff (hb : Booked rt h s) (hl : BcryptLaws rt) (hfault : ∀ k, turn.fault k = none) {user : UserLogin}
    (hu : turn.call.request.logsIn rt = some user) :
    (turn.run rt s).1.success = true ↔
      ∃ row ∈ s.users.rows, row.email = user.email ∧ ∃ q, inForce rt h row.userId = some q ∧ Matches user.password q := by
  constructor
  · intro hs
    have hrun : turn.run rt s = ((turn.run rt s).1,(turn.run rt s).2) := rfl
    obtain ⟨row,hrow,hvalid,-,-⟩ := run_loginUser hrun hu hs
    obtain ⟨hmem,hemail⟩ := (Users.findByEmail_eq_some_iff _ _ _).mp hrow
    obtain ⟨q,hq⟩ := hb row hmem
    obtain ⟨b,salt,hb,hh⟩ := hq.hashed
    exact ⟨row,hmem,hemail,q,hq.inForce_eq,(validPassword_hash_iff hl hb hh _).mp hvalid⟩
  · rintro ⟨row,hmem,hemail,q,hforce,hmatch⟩
    obtain ⟨q',hq⟩ := hb row hmem
    obtain rfl : q = q' := Option.some.inj (hforce.symm.trans hq.inForce_eq)
    obtain ⟨b,salt,hb,hh⟩ := hq.hashed
    have hrun : turn.run rt s = (loggedIn rt row,s) := run_loginUser_of_valid hfault hu
      ((Users.findByEmail_eq_some_iff _ _ _).mpr ⟨hmem,hemail⟩) (hemail ▸ hq.email_storable)
      ((validPassword_hash_iff hl hb hh _).mpr hmatch)
    rw [hrun]
    rfl

/-- So does change-password, when the new password can be hashed and is long enough. -/
theorem Booked.change_iff (hb : Booked rt h s) (hl : BcryptLaws rt) (hfault : ∀ k, turn.fault k = none) {userId p : PyStr}
    {new : Json} (hc : turn.call.request.changes = some (userId,.str p,new)) {i : Uuid} {row : Row}
    (hi : rt.uuidParam userId = some i) (hrow : s.users.findById i = some row) (hlen : ∃ n, new.len = .ok n ∧ 6 ≤ n)
    {hash : PyStr} (hhash : hashText rt new.encode turn.call.salt = .ok hash) :
    (turn.run rt s).1.success = true ↔ ∃ q, inForce rt h i = some q ∧ Matches p q := by
  obtain ⟨hmem,hid⟩ := (Users.findById_eq_some_iff _ _ _).mp hrow
  obtain ⟨q,hq⟩ := hb row hmem
  obtain ⟨b,salt,hb,hh⟩ := hq.hashed
  have hforce : inForce rt h i = some q := hid ▸ hq.inForce_eq
  constructor
  · intro hs
    have hrun : turn.run rt s = ((turn.run rt s).1,(turn.run rt s).2) := rfl
    obtain ⟨j,row',-,hj,hrow',hvalid,-⟩ := run_changePassword hrun hc hs
    obtain rfl : i = j := Option.some.inj (hi.symm.trans hj)
    obtain rfl : row = row' := Option.some.inj (hrow.symm.trans hrow')
    exact ⟨q,hforce,(validPassword_hash_iff hl hb hh p).mp hvalid⟩
  · rintro ⟨q',hforce',hmatch⟩
    obtain rfl : q = q' := Option.some.inj (hforce.symm.trans hforce')
    have hne : q ≠ [] := by
      rintro rfl
      exact absurd hq.length (by decide)
    have hp := hmatch.ne_nil hne
    obtain ⟨b',hb',hh'⟩ := hashText_eq_ok hhash
    have hrun : (turn.run rt s).1 = passwordChanged := run_changePassword_of_valid hfault hc
      (by cases p with | nil => exact absurd rfl hp | cons a p => rfl) hlen hhash
      (hl.hashpw_storable _ _ _ hh') hi hrow ((validPassword_hash_iff hl hb hh p).mpr hmatch)
    rw [hrun]
    rfl

end Checks

theorem booked_session (hround : UuidRoundTrip rt) (records : List TestRecord) (turns : List Turn) :
    Booked rt (history rt ⟨Users.empty,records⟩ turns) (after rt ⟨Users.empty,records⟩ turns) := by
  refine session_induction (Booked rt) ?_ _ ?_ turns
  · intro h s turn hb
    exact booked_step hround rfl hb
  · intro row hrow
    cases hrow

/-- From an empty table, after any session: every row has a password in force, login
accepts exactly what matches it, and so does change-password. -/
theorem password_in_force (hl : BcryptLaws rt) (hround : UuidRoundTrip rt) (records : List TestRecord)
    (turns : List Turn) :
    (∀ row ∈ (after rt ⟨Users.empty,records⟩ turns).users.rows,
      ∃ q, inForce rt (history rt ⟨Users.empty,records⟩ turns) row.userId = some q) ∧
    (∀ (turn : Turn) user, (∀ k, turn.fault k = none) → turn.call.request.logsIn rt = some user →
      ((turn.run rt (after rt ⟨Users.empty,records⟩ turns)).1.success = true ↔
        ∃ row ∈ (after rt ⟨Users.empty,records⟩ turns).users.rows, row.email = user.email ∧
          ∃ q, inForce rt (history rt ⟨Users.empty,records⟩ turns) row.userId = some q ∧ Matches user.password q)) ∧
    ∀ (turn : Turn) userId p new i row, (∀ k, turn.fault k = none) →
      turn.call.request.changes = some (userId,.str p,new) → rt.uuidParam userId = some i →
      (after rt ⟨Users.empty,records⟩ turns).users.findById i = some row →
      (∃ n, new.len = .ok n ∧ 6 ≤ n) → (∃ hash, hashText rt new.encode turn.call.salt = .ok hash) →
      ((turn.run rt (after rt ⟨Users.empty,records⟩ turns)).1.success = true ↔
        ∃ q, inForce rt (history rt ⟨Users.empty,records⟩ turns) i = some q ∧ Matches p q) := by
  have hbooked := booked_session hround records turns
  refine ⟨?_,?_,?_⟩
  · intro row hrow
    obtain ⟨q,hq⟩ := hbooked row hrow
    exact ⟨q,hq.inForce_eq⟩
  · intro turn user hfault hu
    exact hbooked.login_iff hl hfault hu
  · intro turn userId p new i row hfault hc hi hrow hlen ⟨hash,hhash⟩
    exact hbooked.change_iff hl hfault hc hi hrow hlen hhash

open Reference in
/-- Register, then change the password. -/
def registerThenChange : List Turn :=
  [⟨⟨registerRequest "user" "user@example.com" "secret1",saltOf "secret1",accountId,1⟩,fun _ => none⟩,
    ⟨⟨changeRequest accountId "secret1" "secret2",saltOf "secret2",2,2⟩,fun _ => none⟩]

open Reference in
def loginTurn (email password : String) : Turn := ⟨⟨loginRequest email password,[],0,0⟩,fun _ => none⟩

theorem changed_password_in_force :
    inForce reference (history reference ⟨Users.empty,[]⟩ registerThenChange) Reference.accountId = some (py "secret2") ∧
    ((loginTurn "user@example.com" "secret2").run reference
      (after reference ⟨Users.empty,[]⟩ registerThenChange)).1.success = true ∧
    (((loginTurn "user@example.com" "secret2").run reference
        (after reference ⟨Users.empty,[]⟩ registerThenChange)).1.success = true ↔
      ∃ row ∈ (after reference ⟨Users.empty,[]⟩ registerThenChange).users.rows, row.email = py "user@example.com" ∧
        ∃ q, inForce reference (history reference ⟨Users.empty,[]⟩ registerThenChange) row.userId = some q ∧
          Matches (py "secret2") q) :=
  ⟨by decide +kernel,by decide +kernel,
    (password_in_force Reference.bcryptLaws Reference.roundTrip [] registerThenChange).2.1
      (loginTurn "user@example.com" "secret2") ⟨py "user@example.com",py "secret2"⟩ (fun _ => rfl) (by decide +kernel)⟩

end Thintuit.Server
