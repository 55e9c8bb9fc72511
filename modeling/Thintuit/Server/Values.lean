import Mathlib

/-! The Python values the handlers compute with. A string is a list of code points,
lone surrogates included, since JSON bodies and query strings can carry them. -/
namespace Thintuit.Server

abbrev CodePoint := Fin 0x110000
abbrev PyStr := List CodePoint
abbrev Bytes := List UInt8

instance instNeZeroCodePoint : NeZero 0x110000 := ⟨by decide⟩

/-- A source literal as a Python string. -/
def py (text : String) : PyStr := text.toList.map (fun c => Fin.ofNat 0x110000 c.toNat)

/-- Lower case of the ASCII letters; other code points stay. -/
def asciiLower (c : CodePoint) : CodePoint :=
  if 65 ≤ c.val ∧ c.val ≤ 90 then Fin.ofNat 0x110000 (c.val + 32) else c

/-- A hexadecimal digit as it is printed, in lower case. -/
def hexDigit (d : Nat) : CodePoint := Fin.ofNat 0x110000 (Nat.digitChar d).toNat

/-- The value of a hexadecimal digit of either case. -/
def hexValue (c : CodePoint) : Option Nat :=
  if 48 ≤ c.val ∧ c.val ≤ 57 then some (c.val-48)
  else if 65 ≤ c.val ∧ c.val ≤ 70 then some (c.val-55)
  else if 97 ≤ c.val ∧ c.val ≤ 102 then some (c.val-87)
  else none

theorem hexValue_hexDigit : ∀ d, d < 16 → hexValue (hexDigit d) = some d := by decide

/-- Exceptions other than `HTTPException`, as far as the handlers tell them apart. -/
inductive ErrorKind where
  | valueError | typeError | attributeError | uniqueViolationError | dataError | other
  deriving DecidableEq, Repr

/-- A raised exception with the text `str(e)` gives for it. -/
structure PyError where
  kind : ErrorKind
  text : String
  deriving DecidableEq, Repr

inductive PyExn where
  | http (statusCode : Nat) (detail : String)
  | error (e : PyError)
  deriving DecidableEq, Repr

/-- Starlette prints an `HTTPException` as its status and detail. -/
def PyExn.str : PyExn → String
  | .http statusCode detail => toString statusCode ++ ": " ++ detail
  | .error e => e.text

def surrogate (c : CodePoint) : Bool := 0xd800 ≤ c.val && c.val ≤ 0xdfff

/-- The message of `UnicodeEncodeError`, which names the first run of surrogates. -/
def unicodeEncodeError (s : PyStr) : String :=
  let start := (s.takeWhile (fun c => !surrogate c)).length
  match (s.dropWhile (fun c => !surrogate c)).takeWhile surrogate with
  | [c] => "'utf-8' codec can't encode character '\\u" ++ String.ofList (Nat.toDigits 16 c.val) ++
      "' in position " ++ toString start ++ ": surrogates not allowed"
  | run => "'utf-8' codec can't encode characters in position " ++ toString start ++ "-" ++
      toString (start + run.length - 1) ++ ": surrogates not allowed"

def utf8 (s : PyStr) : Bytes := s.flatMap (fun c => String.utf8EncodeChar (Char.ofNat c.val))

/-- `s.encode('utf-8')`. A `UnicodeEncodeError` is a `ValueError`. -/
def encode (s : PyStr) : Except PyError Bytes :=
  if s.any surrogate then .error ⟨.valueError,unicodeEncodeError s⟩ else .ok (utf8 s)

theorem encode_eq_ok_iff (s : PyStr) (b : Bytes) : encode s = .ok b ↔ (∀ c ∈ s, surrogate c = false) ∧ b = utf8 s := by
  unfold encode
  split
  · rename_i h
    simp only [List.any_eq_true] at h
    obtain ⟨c,hc,hs⟩ := h
    simp only [reduceCtorEq,false_iff,not_and]
    intro hall
    simp [hall c hc] at hs
  · rename_i h
    have hall : ∀ c ∈ s, surrogate c = false := by simpa using h
    constructor
    · intro he
      exact ⟨hall,(Except.ok.inj he).symm⟩
    · rintro ⟨_,rfl⟩
      rfl

theorem encode_error_kind {s : PyStr} {e : PyError} (h : encode s = .error e) : e.kind = .valueError := by
  unfold encode at h
  split at h
  · cases h; rfl
  · cases h

inductive PyFloat where
  | finite (value : Rat)
  | infinite (negative : Bool)
  | nan
  deriving DecidableEq

/-- What `json.loads` can return; an object keeps one value for each key. -/
inductive Json where
  | null
  | bool (b : Bool)
  | int (n : Int)
  | float (x : PyFloat)
  | str (s : PyStr)
  | arr (items : List Json)
  | obj (fields : List (PyStr × Json))

namespace Json

/-- The name `type(x).__name__` gives in error messages. -/
def typeName : Json → String
  | .null => "NoneType"
  | .bool _ => "bool"
  | .int _ => "int"
  | .float _ => "float"
  | .str _ => "str"
  | .arr _ => "list"
  | .obj _ => "dict"

/-- Python truth value: the operand of `not`. -/
def truthy : Json → Bool
  | .null => false
  | .bool b => b
  | .int n => n ≠ 0
  | .float (.finite q) => q ≠ 0
  | .float _ => true
  | .str s => !s.isEmpty
  | .arr items => !items.isEmpty
  | .obj fields => !fields.isEmpty

/-- `len(x)`. -/
def len : Json → Except PyError Nat
  | .str s => .ok s.length
  | .arr items => .ok items.length
  | .obj fields => .ok fields.length
  | x => .error ⟨.typeError,"object of type '" ++ x.typeName ++ "' has no len()"⟩

/-- `x.encode('utf-8')`, which only strings have. -/
def encode : Json → Except PyError Bytes
  | .str s => Server.encode s
  | x => .error ⟨.attributeError,"'" ++ x.typeName ++ "' object has no attribute 'encode'"⟩

/-- `x == s` for a string `s`. -/
def eqStr (s : PyStr) : Json → Bool
  | .str t => t == s
  | _ => false

end Json

/-- `d.get(key)` on a decoded JSON object; a missing key gives `None`. -/
def dictGet (fields : List (PyStr × Json)) (key : PyStr) : Json := (fields.lookup key).getD .null

/-- `request.query_params.get(key)`: Starlette keeps the last value of a repeated key. -/
def queryGet (query : List (PyStr × PyStr)) (key : PyStr) : Option PyStr := query.reverse.lookup key

end Thintuit.Server
