import Thintuit.Client.Fetch

/-! A runtime that meets the assumed laws: UUIDs in their canonical text, read as the
driver reads them, and bcrypt on a table of known answers. With it come a table
of one account and the requests that address an account by its id. -/
namespace Thintuit.Server.Reference

/-- The last `k` hexadecimal digits of a number. -/
def lastDigits : Nat → Nat → PyStr
  | 0, _ => []
  | k+1, n => lastDigits k (n / 16) ++ [hexDigit (n % 16)]

def readHex : Nat → PyStr → Option Nat
  | acc, [] => some acc
  | acc, c :: cs => (hexValue c).bind (fun d => readHex (16 * acc + d) cs)

/-- Put a dash after each of the leading groups. -/
def dashed : List Nat → PyStr → PyStr
  | [], d => d
  | k :: ks, d => d.take k ++ 45 :: dashed ks (d.drop k)

def uuidStr (i : Uuid) : PyStr := dashed [8,4,4,4] (lastDigits 32 i.toNat)

/-- The driver takes 32 to 36 characters and skips the dashes among them. -/
def uuidParam (s : PyStr) : Option Uuid :=
  let digits := s.filter (fun c => c ≠ 45)
  if 32 ≤ s.length ∧ s.length ≤ 36 ∧ digits.length = 32 then (readHex 0 digits).map (BitVec.ofNat 128) else none

private theorem hexDigit_ne_dash : ∀ d, d < 16 → hexDigit d ≠ 45 := by decide

theorem length_lastDigits (k n : Nat) : (lastDigits k n).length = k := by
  induction k generalizing n with
  | zero => rfl
  | succ k ih => simp [lastDigits,ih]

theorem lastDigits_ne_dash {k n : Nat} {c : CodePoint} (hc : c ∈ lastDigits k n) : c ≠ 45 := by
  induction k generalizing n with
  | zero => cases hc
  | succ k ih =>
    rcases List.mem_append.mp hc with hc | hc
    · exact ih hc
    · obtain rfl := List.mem_singleton.mp hc
      exact hexDigit_ne_dash _ (Nat.mod_lt _ (by omega))

theorem readHex_append (acc : Nat) (xs ys : PyStr) :
    readHex acc (xs ++ ys) = (readHex acc xs).bind (fun a => readHex a ys) := by
  induction xs generalizing acc with
  | nil => rfl
  | cons c cs ih =>
    rw [List.cons_append,readHex,readHex]
    cases hexValue c with
    | none => rfl
    | some d => exact ih _

theorem readHex_lastDigits (k n : Nat) : readHex 0 (lastDigits k n) = some (n % 16^k) := by
  induction k generalizing n with
  | zero => simp [lastDigits,readHex,Nat.mod_one]
  | succ k ih =>
    have hdigit := hexValue_hexDigit (n % 16) (Nat.mod_lt n (by omega))
    have hsplit : n % 16^(k+1) = n % 16 + 16 * (n / 16 % 16^k) := by
      rw [Nat.pow_succ']
      exact Nat.mod_mul
    rw [lastDigits,readHex_append,ih,hsplit]
    simp only [Option.bind_some,readHex,hdigit]
    congr 1
    omega

/-- Without its dashes a dashed text is the text it was made from. -/
theorem filter_dashed (ks : List Nat) {d : PyStr} (hd : ∀ c ∈ d, c ≠ 45) :
    (dashed ks d).filter (fun c => c ≠ 45) = d := by
  induction ks generalizing d with
  | nil =>
    apply List.filter_eq_self.mpr
    intro c hc
    simpa using hd c hc
  | cons k ks ih =>
    have hhead : (d.take k).filter (fun c => c ≠ 45) = d.take k := by
      apply List.filter_eq_self.mpr
      intro c hc
      simpa using hd c (List.mem_of_mem_take hc)
    have htail := ih (fun c hc => hd c (List.mem_of_mem_drop hc) : ∀ c ∈ d.drop k, c ≠ 45)
    rw [dashed,List.filter_append,hhead,List.filter_cons_of_neg (by simp),htail,List.take_append_drop]

theorem length_dashed (ks : List Nat) (d : PyStr) : (dashed ks d).length = d.length + ks.length := by
  induction ks generalizing d with
  | nil => rfl
  | cons k ks ih =>
    rw [dashed,List.length_append,List.length_cons,ih,List.length_take,List.length_drop,List.length_cons]
    omega

private theorem uuidParam_of_digits {s d : PyStr} (hd : s.filter (fun c => c ≠ 45) = d) (hmin : 32 ≤ s.length)
    (hmax : s.length ≤ 36) (hlen : d.length = 32) : uuidParam s = (readHex 0 d).map (BitVec.ofNat 128) := by
  subst hd
  exact if_pos ⟨hmin,hmax,hlen⟩

theorem uuidParam_uuidStr (i : Uuid) : uuidParam (uuidStr i) = some i := by
  have hdigits := filter_dashed [8,4,4,4] (fun _ hc => lastDigits_ne_dash hc : ∀ c ∈ lastDigits 32 i.toNat, c ≠ 45)
  have hlen : (uuidStr i).length = 36 := by rw [uuidStr,length_dashed,length_lastDigits]; rfl
  have hmod : i.toNat % 16^32 = i.toNat := Nat.mod_eq_of_lt i.isLt
  rw [uuidStr] at hlen ⊢
  rw [uuidParam_of_digits hdigits (by omega) (by omega) (length_lastDigits 32 _),readHex_lastDigits,hmod]
  simp

/-- bcrypt answers, with the salts and the cost factor that `gensalt()` gives. -/
structure KnownAnswer where
  password : PyStr
  salt : PyStr
  hash : PyStr
  deriving DecidableEq

def knownAnswers : List KnownAnswer :=
  [⟨py "secret1",py "$2b$12$N9qo8uLOickgx2ZMRZoMye",
      py "$2b$12$N9qo8uLOickgx2ZMRZoMyekLXCQ7pDDd66cuoYXvH6wE4ciPyoXZC"⟩,
    ⟨py "secret2",py "$2b$12$7EqJtq98hPqEX7fNZaFWoO",
      py "$2b$12$7EqJtq98hPqEX7fNZaFWoOqr5HfBf3xZae/6RYijP5sOhZWUFWBke"⟩,
    ⟨py "secret3",py "$2b$12$DCq7YPn5Rq63x1Lad4cll.",
      py "$2b$12$DCq7YPn5Rq63x1Lad4cll.zdZKOb4xGtuGydB/iDPUu17luSwYDgu"⟩]

def invalidSalt : PyError := ⟨.valueError,"Invalid salt"⟩

def hashpw (password salt : Bytes) : Except PyError PyStr :=
  match knownAnswers.find? (fun a => utf8 a.password = password ∧ utf8 a.salt = salt) with
  | some a => .ok a.hash
  | none => .error invalidSalt

def checkpw (password hashedPassword : Bytes) : Except PyError Bool :=
  match knownAnswers.find? (fun a => utf8 a.hash = hashedPassword) with
  | some a => .ok (password.take 72 = (utf8 a.password).take 72)
  | none => .error invalidSalt

/-- A pydantic string must be valid Unicode. -/
def strField : Json → Option PyStr
  | .str s => if s.any surrogate then none else some s
  | _ => none

/-- One `@` between two parts of printable ASCII; the domain has a dot and is lower-cased. -/
def emailStr : Json → Option PyStr
  | .str s =>
    let name := s.takeWhile (fun c => c ≠ 64)
    let domain := (s.dropWhile (fun c => c ≠ 64)).drop 1
    if name ≠ [] ∧ 46 ∈ domain ∧ 64 ∉ domain ∧ s.all (fun c => 33 ≤ c.val && c.val ≤ 126) then
      some (name ++ 64 :: domain.map asciiLower)
    else none
  | _ => none

theorem emailStr_end {x : Json} {email : PyStr} (h : emailStr x = some email) : email.getLast? ≠ some 32 := by
  cases x with
  | str s =>
    simp only [emailStr] at h
    split at h
    · rename_i hs
      obtain rfl := Option.some.inj h
      obtain ⟨-,-,-,hvisible⟩ := hs
      intro hlast
      rcases List.mem_append.mp (List.mem_of_getLast? hlast) with hmem | hmem
      · have h32 := List.all_eq_true.mp hvisible 32 ((List.takeWhile_prefix _).mem hmem)
        exact absurd h32 (by decide)
      · rcases List.mem_cons.mp hmem with hat | hmem
        · exact absurd hat (by decide)
        · obtain ⟨c,hc,hlower⟩ := List.mem_map.mp hmem
          have hseen := List.all_eq_true.mp hvisible c ((List.dropWhile_suffix _).mem (List.mem_of_mem_drop hc))
          simp only [Bool.and_eq_true,decide_eq_true_eq] at hseen
          have hval := congrArg Fin.val hlower
          unfold asciiLower at hval
          split at hval
          · rename_i hcapital
            simp only [Fin.ofNat] at hval
            omega
          · change c.val = 32 at hval
            omega
    · cases h
  | _ => cases h

def failureText : Failure → String
  | .invalidUuid _ => "invalid input for query argument $1: invalid UUID"
  | .invalidText _ => "invalid byte sequence for encoding \"UTF8\": 0x00"
  | .valueTooLong limit => "value too long for type character varying(" ++ toString limit ++ ")"
  | .duplicateEmail _ => "duplicate key value violates unique constraint \"users_email_key\""
  | .duplicateUserId _ => "duplicate key value violates unique constraint \"users_pkey\""

end Thintuit.Server.Reference

namespace Thintuit.Server

/-- Timestamps are only told apart by the order of rows, so all of them print alike here. -/
def reference : Runtime where
  hashpw := Reference.hashpw
  checkpw := Reference.checkpw
  strField := Reference.strField
  emailStr := Reference.emailStr
  emailStr_end := Reference.emailStr_end
  validationErrors := fun _ => .arr []
  uuidStr := Reference.uuidStr
  uuidParam := Reference.uuidParam
  isoformat := fun _ => py "2025-04-01T08:00:00"
  failureText := Reference.failureText
  collate := fun a b => a.map Fin.val ≤ b.map Fin.val

end Thintuit.Server

namespace Thintuit.Server.Reference

@[simp] theorem reference_uuidParam : reference.uuidParam = uuidParam := rfl
@[simp] theorem reference_uuidStr : reference.uuidStr = uuidStr := rfl

theorem roundTrip : UuidRoundTrip reference := by
  intro i
  rw [reference_uuidParam,reference_uuidStr]
  exact uuidParam_uuidStr i

private theorem knownAnswers_hash : ∀ a ∈ knownAnswers, HashText a.hash ∧ a.hash.all Runtime.storable = true ∧
    knownAnswers.find? (fun b => utf8 b.hash = utf8 a.hash) = some a := by decide +kernel

private theorem hashpw_eq_ok {q salt : Bytes} {h : PyStr} (hq : hashpw q salt = .ok h) :
    ∃ a ∈ knownAnswers, utf8 a.password = q ∧ a.hash = h := by
  unfold hashpw at hq
  split at hq
  · rename_i a ha
    have hp := List.find?_some ha
    simp only [decide_eq_true_eq] at hp
    exact ⟨a,List.mem_of_find?_eq_some ha,hp.1,Except.ok.inj hq⟩
  · cases hq

private theorem checkpw_known {a : KnownAnswer} (ha : a ∈ knownAnswers) (p : Bytes) :
    checkpw p (utf8 a.hash) = .ok (p.take 72 = (utf8 a.password).take 72) := by
  unfold checkpw
  rw [(knownAnswers_hash a ha).2.2]

theorem bcryptLaws : BcryptLaws reference where
  hashpw_text q salt h hq := by
    obtain ⟨a,ha,-,rfl⟩ := hashpw_eq_ok hq
    exact (knownAnswers_hash a ha).1
  checkpw_true_iff p q salt h hq := by
    obtain ⟨a,ha,rfl,rfl⟩ := hashpw_eq_ok hq
    simp [reference,checkpw_known ha]
  checkpw_hash p q salt h hq _ := by
    obtain ⟨a,ha,rfl,rfl⟩ := hashpw_eq_ok hq
    exact ⟨_,checkpw_known ha (utf8 p)⟩
  hashpw_storable q salt h hq := by
    obtain ⟨a,ha,-,rfl⟩ := hashpw_eq_ok hq
    exact (knownAnswers_hash a ha).2.1

def accountId : Uuid := 0x6f1c2d3e4b5a49788796a5b4c3d2e1f0

/-- An account whose password is `secret1`. -/
def account : Row where
  userId := accountId
  name := py "user"
  email := py "user@example.com"
  password := py "$2b$12$N9qo8uLOickgx2ZMRZoMyekLXCQ7pDDd66cuoYXvH6wE4ciPyoXZC"
  createdAt := some 0
  role := some (py "normal")

def store : Store where
  users := ⟨[account],by simp,by simp⟩
  testrecordsdetails2022 := []

def sessionOf (i : Uuid) : Client.Session := ⟨[(py "user_id",uuidStr i)],[]⟩

def changeRequest (i : Uuid) (current new : String) : Request :=
  Client.postJson "/change-password" (sessionOf i) [(py "current_password",py current),(py "new_password",py new)]

def deleteRequest (i : Uuid) : Request := Client.bare .delete "/delete-account" (sessionOf i)

def registerRequest (name email password : String) : Request :=
  Client.postJson "/register" ⟨[],[]⟩ [(py "name",py name),(py "email",py email),(py "password",py password)]

def loginRequest (email password : String) : Request :=
  Client.postJson "/login" ⟨[],[]⟩ [(py "email",py email),(py "password",py password)]

/-- The salt on file for a password. -/
def saltOf (password : String) : Bytes :=
  ((knownAnswers.find? (fun a => a.password = py password)).map (fun a => utf8 a.salt)).getD []

end Thintuit.Server.Reference
