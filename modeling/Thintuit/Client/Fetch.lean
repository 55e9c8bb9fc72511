import Thintuit.Server.Handlers

/-! Requests as the browser's `fetch` sends them. JavaScript strings may hold lone
surrogates, which `JSON.stringify` escapes and the server's JSON parser restores. -/
namespace Thintuit.Client
open Server

def hexText (n : Nat) : PyStr := py (String.ofList (Nat.toDigits 16 n))

def jsonEscape (c : CodePoint) : PyStr :=
  if c.val = 34 then py "\\\""
  else if c.val = 92 then py "\\\\"
  else if c.val = 8 then py "\\b"
  else if c.val = 9 then py "\\t"
  else if c.val = 10 then py "\\n"
  else if c.val = 12 then py "\\f"
  else if c.val = 13 then py "\\r"
  else if c.val < 16 then py "\\u000" ++ hexText c.val
  else if c.val < 32 then py "\\u00" ++ hexText c.val
  else if surrogate c then py "\\u" ++ hexText c.val
  else [c]

def jsonString (s : PyStr) : PyStr := 34 :: s.flatMap jsonEscape ++ [34]

/-- `JSON.stringify` of an object whose values are strings. -/
def jsonText (fields : List (PyStr × PyStr)) : PyStr :=
  123 :: List.intercalate [44] (fields.map (fun f => jsonString f.1 ++ 58 :: jsonString f.2)) ++ [125]

/-- The query string and the cookies come with the URL and the browser's session. -/
structure Session where
  query : List (PyStr × PyStr)
  cookies : List (PyStr × PyStr)

def postJson (path : String) (session : Session) (fields : List (PyStr × PyStr)) : Request where
  method := .post
  path := py path
  query := session.query
  cookies := session.cookies
  body := some (.obj (fields.map (fun f => (f.1,.str f.2))))
  rawBody := .ok (jsonText fields)

/-- A request without a body. -/
def bare (method : Method) (path : String) (session : Session) : Request where
  method := method
  path := py path
  query := session.query
  cookies := session.cookies
  body := none
  rawBody := .ok []

end Thintuit.Client
