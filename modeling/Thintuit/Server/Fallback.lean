import Thintuit.Server.Concurrency
import Thintuit.Server.Reference

/-! The comparison both handlers fall back to when bcrypt raises `ValueError`. It is
meant for rows that were never hashed, and it never reaches any other row. -/
namespace Thintuit.Server
open Interaction
variable (rt : Runtime)

/-- What is assumed of bcrypt here: `hashpw` gives a hash text or raises, and checking
one hash text against a hash does not raise `ValueError`. -/
structure HashLaws : Prop where
  hashpw_text : ∀ q salt h, rt.hashpw q salt = .ok h → HashText h
  checkpw_hash : ∀ p q salt h e, rt.hashpw q salt = .ok h → HashText p →
    rt.checkpw (utf8 p) (utf8 h) = .error e → e.kind ≠ .valueError

theorem BcryptLaws.hashLaws {rt : Runtime} (hl : BcryptLaws rt) : HashLaws rt where
  hashpw_text := hl.hashpw_text
  checkpw_hash p q salt h e hq hp he := by
    obtain ⟨b,hb⟩ := hl.checkpw_hash p q salt h hq hp
    rw [hb] at he
    cases he

def bcryptCheck (encoded : Except PyError Bytes) (stored : PyStr) : Except PyError Bool := do
  rt.checkpw (← encoded) (← encode stored)

/-- The submitted value is accepted, and not by bcrypt. -/
def ThroughFallback (encoded : Except PyError Bytes) (same : Bool) (stored : PyStr) : Prop :=
  ∃ e, bcryptCheck rt encoded stored = .error e ∧ e.kind = .valueError ∧ (stored == py "hashed_pwd" || same) = true

/-- Some value is accepted through the fallback of login or of change-password. -/
def FallbackOpen (stored : PyStr) : Prop :=
  (∃ p : PyStr, ThroughFallback rt (encode p) (p == stored) stored) ∨
    ∃ j : Json, ThroughFallback rt j.encode (j.eqStr stored) stored

/-- Login and change-password accept nothing against this text unless `checkpw` does. -/
def OnlyBcrypt (stored : PyStr) : Prop :=
  (∀ p, loginUser.validPassword rt p stored = .ok true → bcryptCheck rt (encode p) stored = .ok true) ∧
    ∀ j, changePassword.validPassword rt j stored = .ok true → bcryptCheck rt j.encode stored = .ok true

def openIds (s : Store) : Set Uuid := {i | ∃ row ∈ s.users.rows, row.userId = i ∧ FallbackOpen rt row.password}

def Effect.written : Effect → Option PyStr
  | .insert row => some row.password
  | .setPassword _ password => some password
  | _ => Option.none

variable {rt}

theorem validPassword_iff (encoded : Except PyError Bytes) (same : Bool) (stored : PyStr) :
    validPassword rt encoded same stored = .ok true ↔
      bcryptCheck rt encoded stored = .ok true ∨ ThroughFallback rt encoded same stored := by
  unfold validPassword ThroughFallback
  rw [← bcryptCheck]
  cases bcryptCheck rt encoded stored with
  | ok valid => simp
  | error e =>
    by_cases hk : e.kind = .valueError
    · simp [hk]
    · simp [hk]

/-- A hash is never its own key. -/
private theorem not_fallback_hash (hl : HashLaws rt) {q salt : Bytes} {h : PyStr} (hq : rt.hashpw q salt = .ok h)
    {encoded : Except PyError Bytes} {same : Bool} (hsame : same = true → encoded = encode h) :
    ¬ ThroughFallback rt encoded same h := by
  rintro ⟨e,he,hk,hor⟩
  have htext := hl.hashpw_text q salt h hq
  have hplace : (h == py "hashed_pwd") = false := by simpa using htext.ne_placeholder
  rw [hplace,Bool.false_or] at hor
  rw [hsame hor,htext.encode] at he
  have hraise : bcryptCheck rt (.ok (utf8 h)) h = rt.checkpw (utf8 h) (utf8 h) := by
    rw [bcryptCheck,htext.encode]
    rfl
  exact hl.checkpw_hash h q salt h e hq htext (hraise.symm.trans he) hk

theorem hashText_eq_ok {encoded : Except PyError Bytes} {salt : Bytes} {h : PyStr}
    (hh : hashText rt encoded salt = .ok h) : ∃ q, encoded = .ok q ∧ rt.hashpw q salt = .ok h := by
  unfold hashText at hh
  cases encoded with
  | error e => cases hh
  | ok q => exact ⟨q,rfl,hh⟩

theorem not_fallbackOpen_hash (hl : HashLaws rt) {q salt : Bytes} {h : PyStr} (hq : rt.hashpw q salt = .ok h) :
    ¬ FallbackOpen rt h := by
  rintro (⟨p,hp⟩ | ⟨j,hj⟩)
  · exact not_fallback_hash hl hq (fun hsame => by rw [eq_of_beq hsame]) hp
  · refine not_fallback_hash hl hq (fun hsame => ?_) hj
    cases j with
    | str t => rw [eq_of_beq (hsame : (t == h) = true)]; rfl
    | _ => cases hsame

theorem onlyBcrypt_of_closed {stored : PyStr} (hclosed : ¬ FallbackOpen rt stored) : OnlyBcrypt rt stored := by
  refine ⟨fun p hp => ?_,fun j hj => ?_⟩
  · rcases (validPassword_iff _ _ _).mp hp with h | h
    · exact h
    · exact absurd (.inl ⟨p,h⟩) hclosed
  · rcases (validPassword_iff _ _ _).mp hj with h | h
    · exact h
    · exact absurd (.inr ⟨j,h⟩) hclosed

section Runs
variable {ι : Type}

/-- A row's password is the one it had at first or one that a statement wrote. -/
theorem password_origin {s t : Store} {log : Log ι} (hchain : Chain (exec rt) s log t) {row : Row}
    (hrow : row ∈ t.users.rows) :
    (∃ old ∈ s.users.rows, old.userId = row.userId ∧ old.password = row.password) ∨
      ∃ e ∈ log, (eventEffect rt e).written = some row.password := by
  refine hchain.invariant (fun t => ∀ row ∈ t.users.rows,
    (∃ old ∈ s.users.rows, old.userId = row.userId ∧ old.password = row.password) ∨
      ∃ e ∈ log, (eventEffect rt e).written = some row.password) ?_ ?_ row hrow
  · intro e he ih row hrow
    rw [event_rows] at hrow
    cases heff : eventEffect rt e with
    | none =>
      rw [heff] at hrow
      exact ih row hrow
    | insert r =>
      rw [heff] at hrow
      rcases List.mem_append.mp hrow with h | h
      · exact ih row h
      · obtain rfl := List.mem_singleton.mp h
        exact .inr ⟨e,he,by rw [heff]; rfl⟩
    | setPassword i password =>
      rw [heff] at hrow
      obtain ⟨r,hr,rfl⟩ := List.mem_map.mp hrow
      by_cases hi : r.userId = i
      · refine .inr ⟨e,he,?_⟩
        rw [heff]
        simp [Effect.written,Users.setPasswordRow,hi]
      · have hsame : Users.setPasswordRow i password r = r := by simp [Users.setPasswordRow,hi]
        rw [hsame]
        exact ih r hr
    | delete i =>
      rw [heff] at hrow
      exact ih row (List.mem_of_mem_filter hrow)
  · intro row hrow
    exact .inl ⟨row,hrow,rfl,rfl⟩

variable [DecidableEq ι] {calls : ι → Call} {s : Store} {sched : List (ι × Option PyError)}

/-- Every password a request writes is a hash. -/
theorem written_hash {e : Event ι Choice Store DbOp} (he : e ∈ (serving rt calls s sched).log) {password : PyStr}
    (hw : (eventEffect rt e).written = some password) : ∃ q salt, rt.hashpw q salt = .ok password := by
  obtain ⟨n,c,op,t⟩ := e
  cases heff : eventEffect rt (⟨n,c,op,t⟩ : Event ι Choice Store DbOp) with
  | insert row =>
    rw [heff] at hw
    obtain rfl := Option.some.inj hw
    obtain ⟨name,email,password,rfl,rfl,-,-⟩ := effect_insert rt heff
    obtain ⟨next,user,-,-,-,hreg,-⟩ := serving_issues he
    obtain ⟨q,-,hq⟩ := hashText_eq_ok hreg.hashed
    exact ⟨q,_,hq⟩
  | setPassword i h =>
    rw [heff] at hw
    obtain rfl := Option.some.inj hw
    obtain ⟨userId,rfl,-⟩ := effect_setPassword rt heff
    obtain ⟨next,cur,new,-,hhash,-⟩ := serving_issues he
    obtain ⟨q,-,hq⟩ := hashText_eq_ok hhash
    exact ⟨q,_,hq⟩
  | _ => rw [heff] at hw; cases hw

/-- A check against a row of the table passes by bcrypt, or the row's password has never been written. -/
private theorem accepted_row (hl : HashLaws rt) {past future : Log ι} {e : Event ι Choice Store DbOp}
    (hlog : (serving rt calls s sched).log = past ++ e :: future) {row : Row} (hrow : row ∈ e.before.users.rows)
    {encoded : Except PyError Bytes} {same : Bool}
    (hopen : ThroughFallback rt encoded same row.password → FallbackOpen rt row.password)
    (hvalid : validPassword rt encoded same row.password = .ok true) :
    bcryptCheck rt encoded row.password = .ok true ∨ (FallbackOpen rt row.password ∧
      ∃ old ∈ s.users.rows, old.userId = row.userId ∧ old.password = row.password) := by
  rcases (validPassword_iff _ _ _).mp hvalid with h | h
  · exact .inl h
  right
  refine ⟨hopen h,?_⟩
  have hchain := serving_chain rt calls s sched
  rw [hlog] at hchain
  rcases password_origin hchain.split.1 hrow with hold | ⟨w,hw,hwritten⟩
  · exact hold
  · obtain ⟨q,salt,hq⟩ := written_hash (by rw [hlog]; exact List.mem_append_left _ hw) hwritten
    exact absurd (hopen h) (not_fallbackOpen_hash hl hq)

end Runs

/-- The fallback never gains an account, from any table and in any interleaving:
the open accounts only shrink, every password written on the way answers to bcrypt
alone, and a success that used the fallback met a password of the initial table. -/
theorem fallback_never_gains {ι : Type} [DecidableEq ι] (hl : HashLaws rt) (calls : ι → Call) (s : Store)
    (sched₁ sched₂ : List (ι × Option PyError)) :
    openIds rt (serving rt calls s (sched₁ ++ sched₂)).store ⊆ openIds rt (serving rt calls s sched₁).store ∧
    (∀ e ∈ (serving rt calls s sched₁).log, ∀ password, (eventEffect rt e).written = some password →
      OnlyBcrypt rt password ∧ ¬ FallbackOpen rt password) ∧
    (∀ row ∈ (serving rt calls s sched₁).store.users.rows,
      (∃ old ∈ s.users.rows, old.userId = row.userId ∧ old.password = row.password) ∨
        ∃ e ∈ (serving rt calls s sched₁).log, (eventEffect rt e).written = some row.password) ∧
    (∀ n user, (calls n).request.logsIn rt = some user → (serving rt calls s sched₁).succeeded n = true →
      ∃ row, ⟨.fetchByEmail user.email,.ok (some row)⟩ ∈ exchanges (exec rt) n (serving rt calls s sched₁).log ∧
        (bcryptCheck rt (encode user.password) row.password = .ok true ∨ (FallbackOpen rt row.password ∧
          ∃ old ∈ s.users.rows, old.userId = row.userId ∧ old.password = row.password))) ∧
    ∀ n userId currentPassword newPassword,
      (calls n).request.changes = some (userId,currentPassword,newPassword) →
      (serving rt calls s sched₁).succeeded n = true →
      ∃ row, ⟨.fetchById userId,.ok (some row)⟩ ∈ exchanges (exec rt) n (serving rt calls s sched₁).log ∧
        (bcryptCheck rt currentPassword.encode row.password = .ok true ∨ (FallbackOpen rt row.password ∧
          ∃ old ∈ s.users.rows, old.userId = row.userId ∧ old.password = row.password)) := by
  refine ⟨?_,?_,?_,?_,?_⟩
  · rintro i ⟨row,hrow,rfl,hopen⟩
    obtain ⟨tail,htail,hchain,-⟩ := serving_append rt calls s sched₁ sched₂
    rcases password_origin hchain hrow with ⟨old,hold,hid,hpw⟩ | ⟨e,he,hw⟩
    · exact ⟨old,hold,hid,hpw ▸ hopen⟩
    · obtain ⟨q,salt,hq⟩ := written_hash (by rw [htail]; exact List.mem_append_right _ he) hw
      exact absurd hopen (not_fallbackOpen_hash hl hq)
  · intro e he password hw
    obtain ⟨q,salt,hq⟩ := written_hash he hw
    have hclosed := not_fallbackOpen_hash hl hq
    exact ⟨onlyBcrypt_of_closed hclosed,hclosed⟩
  · intro row hrow
    exact password_origin (serving_chain rt calls s sched₁) hrow
  · intro n user hu hs
    obtain ⟨resp,-,hsucc,hpath⟩ := serving_succeeded hs
    obtain ⟨row,hvalid,-,hes⟩ := loginUser_success hu hpath hsucc
    obtain ⟨past,c,t,future,hlog,hok,-,-⟩ := exchanges_eq_append_cons (exec rt) [_] hes
    obtain ⟨-,-,hfind⟩ := (fetchByEmail_ok_iff rt _ _ _ _).mp hok
    have hrow := ((Users.findByEmail_eq_some_iff _ _ _).mp hfind.symm).1
    exact ⟨row,by rw [hes]; simp,accepted_row hl hlog hrow (fun h => .inl ⟨_,h⟩) hvalid⟩
  · intro n userId cur new hc hs
    obtain ⟨resp,-,hsucc,hpath⟩ := serving_succeeded hs
    obtain ⟨row,h,count,hvalid,-,-,-,hes⟩ := changePassword_success hc hpath hsucc
    obtain ⟨past,c,t,future,hlog,hok,-,-⟩ := exchanges_eq_append_cons (exec rt) [_] hes
    obtain ⟨-,i,-,hfind⟩ := (fetchById_ok_iff rt _ _ _ _).mp hok
    have hrow := ((Users.findById_eq_some_iff _ _ _).mp hfind.symm).1
    exact ⟨row,by rw [hes]; simp,accepted_row hl hlog hrow (fun h => .inr ⟨_,h⟩) hvalid⟩

/-- A table whose one account was entered with the placeholder for its password. -/
def placeholderStore : Store where
  users := ⟨[{ Reference.account with password := py "hashed_pwd" }],by simp,by simp⟩
  testrecordsdetails2022 := []

open Reference in
/-- The account is open at first, to a password nobody ever set. -/
theorem placeholder_closes :
    accountId ∈ openIds reference placeholderStore ∧
    openIds reference (serving reference
        (fun _ : Fin 1 => ⟨changeRequest accountId "anything" "secret1",saltOf "secret1",1,1⟩) placeholderStore
        ([(0,none),(0,none)] ++ [(0,none)])).store ⊆
      openIds reference (serving reference
        (fun _ : Fin 1 => ⟨changeRequest accountId "anything" "secret1",saltOf "secret1",1,1⟩) placeholderStore
        [(0,none),(0,none)]).store :=
  ⟨⟨{ Reference.account with password := py "hashed_pwd" },List.mem_cons_self,rfl,
      .inl ⟨py "anything",invalidSalt,by rfl,rfl,by decide +kernel⟩⟩,
    (fallback_never_gains bcryptLaws.hashLaws _ placeholderStore [(0,none),(0,none)] [(0,none)]).1⟩

end Thintuit.Server
