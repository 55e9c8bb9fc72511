import Thintuit.Server.Values

/-! What the handlers take from outside the repository: bcrypt, pydantic, the
database driver and the fixed texts of their errors. These are parameters; a
result that relies on one of them names the law it uses. -/
namespace Thintuit.Server

abbrev Uuid := BitVec 128
abbrev Timestamp := Nat

/-- Why the driver or the database refuses a statement on its own account. The
reasons only mention what the statement itself carries. -/
inductive Failure where
  | invalidUuid (argument : PyStr)
  | invalidText (argument : PyStr)
  | valueTooLong (limit : Nat)
  | duplicateEmail (email : PyStr)
  | duplicateUserId (userId : Uuid)
  deriving DecidableEq

def Failure.kind : Failure → ErrorKind
  | .invalidUuid _ | .invalidText _ | .valueTooLong _ => .dataError
  | .duplicateEmail _ | .duplicateUserId _ => .uniqueViolationError

structure Runtime where
  /-- `bcrypt.hashpw(password, salt).decode('utf-8')`. -/
  hashpw : (password salt : Bytes) → Except PyError PyStr
  /-- `bcrypt.checkpw(password, hashed_password)`. -/
  checkpw : (password hashedPassword : Bytes) → Except PyError Bool
  /-- pydantic's validation of a `str` field. -/
  strField : Json → Option PyStr
  /-- pydantic's validation and normalisation of an `EmailStr` field. -/
  emailStr : Json → Option PyStr
  /-- An address that passes does not end in a blank. -/
  emailStr_end : ∀ {x email}, emailStr x = some email → email.getLast? ≠ some 32
  /-- The `detail` of a 422 answer. -/
  validationErrors : Option Json → Json
  /-- `str(user_id)`. -/
  uuidStr : Uuid → PyStr
  /-- The driver's reading of a string passed for a UUID column. -/
  uuidParam : PyStr → Option Uuid
  /-- The JSON form of a timestamp. -/
  isoformat : Timestamp → PyStr
  failureText : Failure → String
  /-- The database's collation, `a ≤ b`. -/
  collate : PyStr → PyStr → Bool

namespace Runtime
variable (rt : Runtime)

def fail (f : Failure) : PyError := ⟨f.kind,rt.failureText f⟩

/-- PostgreSQL text holds neither NUL nor surrogates. -/
def storable (c : CodePoint) : Bool := c.val ≠ 0 && !surrogate c

def text (s : PyStr) : Except PyError Unit :=
  if s.all storable then .ok () else .error (rt.fail (.invalidText s))

/-- A `VARCHAR` column keeps the first `limit` characters, and an over-long value is refused
unless all that is cut off is blanks, as SQL has it. -/
def varchar (limit : Nat) (s : PyStr) : Except PyError PyStr :=
  if (s.drop limit).all (fun c => c = 32) then .ok (s.take limit) else .error (rt.fail (.valueTooLong limit))

def uuid (s : PyStr) : Except PyError Uuid :=
  match rt.uuidParam s with
  | some i => .ok i
  | none => .error (rt.fail (.invalidUuid s))

@[simp] theorem text_eq_ok_iff (s : PyStr) (u : Unit) : rt.text s = .ok u ↔ s.all storable := by
  unfold text
  split <;> simp_all

@[simp] theorem varchar_eq_ok_iff (limit : Nat) (s t : PyStr) :
    rt.varchar limit s = .ok t ↔ (s.drop limit).all (fun c => c = 32) = true ∧ t = s.take limit := by
  unfold varchar
  split
  · rename_i hs
    rw [Except.ok.injEq,eq_comm]
    exact (and_iff_right hs).symm
  · rename_i hs
    simp [hs]

@[simp] theorem uuid_eq_ok_iff (s : PyStr) (i : Uuid) : rt.uuid s = .ok i ↔ rt.uuidParam s = some i := by
  unfold uuid
  split <;> simp_all

theorem text_error {s : PyStr} {e : PyError} (h : rt.text s = .error e) :
    e.kind = .dataError ∧ ¬ s.all storable := by
  unfold text at h
  split at h
  · cases h
  · rename_i hs
    cases h
    exact ⟨rfl,hs⟩

theorem varchar_error {limit : Nat} {s : PyStr} {e : PyError} (h : rt.varchar limit s = .error e) :
    e.kind = .dataError ∧ ¬ (s.drop limit).all (fun c => c = 32) = true := by
  unfold varchar at h
  split at h
  · cases h
  · rename_i hs
    cases h
    exact ⟨rfl,hs⟩

end Runtime

/-- Of a text that does not end in a blank nothing is cut off. -/
theorem drop_blank_iff {s : PyStr} (hs : s.getLast? ≠ some 32) (limit : Nat) :
    (s.drop limit).all (fun c => c = 32) = true ↔ s.length ≤ limit := by
  constructor
  · intro h
    by_contra hlong
    have hne : s.drop limit ≠ [] := by simpa using hlong
    have hlast := List.all_eq_true.mp h _ (List.getLast_mem hne)
    rw [List.getLast_drop] at hlast
    apply hs
    rw [List.getLast?_eq_some_getLast (fun hnil => hne (by simp [hnil]))]
    simpa using hlast
  · intro h
    simp [List.drop_eq_nil_of_le h]

/-- The shape of a bcrypt hash: sixty ASCII characters beginning `$2`. -/
def HashText (h : PyStr) : Prop := h.length = 60 ∧ (∀ c ∈ h, c.val < 128) ∧ py "$2" <+: h

-- spelled out: the default instance would try every code point instead of those of `h`
instance (h : PyStr) : Decidable (HashText h) :=
  decidable_of_iff (h.length = 60 ∧ h.all (fun c => c.val < 128) ∧ py "$2" <+: h) (by simp [HashText])

theorem HashText.encode {h : PyStr} (hh : HashText h) : encode h = .ok (utf8 h) := by
  rw [encode_eq_ok_iff]
  refine ⟨fun c hc => ?_,rfl⟩
  have := hh.2.1 c hc
  simp only [surrogate,Bool.and_eq_false_iff,decide_eq_false_iff_not]
  omega

theorem HashText.ne_placeholder {h : PyStr} (hh : HashText h) : h ≠ py "hashed_pwd" := by
  rintro rfl
  exact absurd hh.1 (by decide)

/-- What is assumed of bcrypt's hashes and of checking one: `hashpw` gives a hash
text or raises, and its hash of `q` matches exactly the passwords that share the
first 72 bytes of `q`. A mismatch is `False` or an exception, and never an
exception when the password is itself a hash text. -/
structure BcryptLaws (rt : Runtime) : Prop where
  hashpw_text : ∀ q salt h, rt.hashpw q salt = .ok h → HashText h
  checkpw_true_iff : ∀ p q salt h, rt.hashpw q salt = .ok h →
    (rt.checkpw p (utf8 h) = .ok true ↔ p.take 72 = q.take 72)
  checkpw_hash : ∀ p q salt h, rt.hashpw q salt = .ok h → HashText p →
    ∃ b, rt.checkpw (utf8 p) (utf8 h) = .ok b
  hashpw_storable : ∀ q salt h, rt.hashpw q salt = .ok h → h.all Runtime.storable = true

/-- `str()` of a UUID is read back by the driver as the same UUID. -/
def UuidRoundTrip (rt : Runtime) : Prop := ∀ i, rt.uuidParam (rt.uuidStr i) = some i

theorem UuidRoundTrip.injective {rt : Runtime} (h : UuidRoundTrip rt) : Function.Injective rt.uuidStr := by
  intro i j hij
  have hi := h i
  rw [hij,h j] at hi
  exact (Option.some.inj hi).symm

end Thintuit.Server
