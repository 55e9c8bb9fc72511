import Thintuit.Server.Handlers

/-! From an HTTP request to the program that answers it: the route table of
`fastapi_app/main.py`, the framework's validation and its error answers. -/
namespace Thintuit.Server
open Interaction

inductive Endpoint where
  | serveRegisterPage | registerUser | loginUser | serveDashboard | getUserInfo | listAllUsers
  | serveVisualization | getModelAccuracy | logoutUser | changePassword | deleteAccount | root
  deriving DecidableEq, Repr

/-- The decorators of the source, in order. -/
def routes : List (Method × PyStr × Endpoint) :=
  [(.get,py "/register",.serveRegisterPage),(.post,py "/register",.registerUser),
    (.post,py "/login",.loginUser),(.get,py "/dashboard",.serveDashboard),
    (.get,py "/user/info",.getUserInfo),(.get,py "/admin/users",.listAllUsers),
    (.get,py "/visualization",.serveVisualization),(.get,py "/api/accuracy",.getModelAccuracy),
    (.post,py "/logout",.logoutUser),(.post,py "/change-password",.changePassword),
    (.delete,py "/delete-account",.deleteAccount),(.get,py "/",.root)]

def route (method : Method) (path : PyStr) : Option Endpoint :=
  (routes.find? (fun r => r.1 = method ∧ r.2.1 = path)).map (fun r => r.2.2)

def knownPath (path : PyStr) : Bool := routes.any (fun r => r.2.1 = path)

/-- The path Starlette tries next: with the trailing slash removed or added. -/
def toggleSlash (path : PyStr) : PyStr :=
  if path.getLast? = some 47 then path.dropLast else path ++ [47]

def errorDetail (statusCode : Nat) (detail : String) : Response :=
  ⟨statusCode,.json (.obj [(py "detail",.str (py detail))])⟩

/-- No endpoint takes the request: wrong method, missing or extra slash, or unknown path. -/
def unrouted (path : PyStr) : Response :=
  if knownPath path then errorDetail 405 "Method Not Allowed"
  else if path ≠ py "/" ∧ knownPath (toggleSlash path) then ⟨307,.text ""⟩
  else errorDetail 404 "Not Found"

/-- How the framework answers what a handler returns or raises. -/
def answer : Except PyExn Response → Response
  | .ok r => r
  | .error (.http statusCode detail) => errorDetail statusCode detail
  | .error (.error _) => ⟨500,.text "Internal Server Error"⟩

variable {Op : Type} {Reply : Op → Type}

def respond (h : HandlerOf Op Reply Response) : Program Op Reply Response :=
  h.run.bind (fun r => .ret (answer r))

variable (conn : Connecting Op Reply) (rt : Runtime)

def unprocessable (body : Option Json) : Response :=
  ⟨422,.json (.obj [(py "detail",rt.validationErrors body)])⟩

def handle (request : Request) (salt : Bytes) : Endpoint → Program Op Reply Response
  | .serveRegisterPage => .ret ⟨200,.file "/mnt/local/shared/WebSite-Thintuit/public/register/index.html"⟩
  | .registerUser =>
    match UserCreate.validate rt request.body with
    | none => .ret (unprocessable rt request.body)
    | some user => respond (registerUser conn rt request user salt)
  | .loginUser =>
    match UserLogin.validate rt request.body with
    | none => .ret (unprocessable rt request.body)
    | some user => respond (loginUser conn rt user)
  | .serveDashboard => .ret ⟨200,.file "/home/thintuit/code/WebSite-Thintuit/public/dashboard/index.html"⟩
  | .getUserInfo => respond (getUserInfo conn rt request)
  | .listAllUsers => respond (listAllUsers conn rt request)
  | .serveVisualization => .ret ⟨200,.file "/home/thintuit/code/WebSite-Thintuit/public/visualization/index.html"⟩
  | .getModelAccuracy => respond (getModelAccuracy conn)
  | .logoutUser => respond logoutUser
  | .changePassword =>
    match request.body with
    | some (.obj body) => respond (changePassword conn rt request body salt)
    | body => .ret (unprocessable rt body)
  | .deleteAccount => respond (deleteAccount conn request)
  | .root => .ret (ok (.obj [(py "message",.str (py "Welcome to Thintuit API"))]))

def serveOver (request : Request) (salt : Bytes) : Program Op Reply Response :=
  match route request.method request.path with
  | some endpoint => handle conn rt request salt endpoint
  | none => .ret (unrouted request.path)

/-- A request whose connections are given back without further ado. -/
def serve (request : Request) (salt : Bytes) : Program DbOp DbOp.Reply Response := serveOver direct rt request salt

/-! Decoded requests: which handler a request reaches, and with what arguments. -/

def Request.endpoint (request : Request) : Option Endpoint := route request.method request.path

def Request.registers (request : Request) : Option UserCreate :=
  if request.endpoint = some .registerUser then UserCreate.validate rt request.body else none

def Request.logsIn (request : Request) : Option UserLogin :=
  if request.endpoint = some .loginUser then UserLogin.validate rt request.body else none

/-- A change-password request: its `user_id`, `current_password` and `new_password`. -/
def Request.changes (request : Request) : Option (PyStr × Json × Json) :=
  if request.endpoint = some .changePassword then
    match request.body, request.userId with
    | some (.obj body), some userId =>
      some (userId,dictGet body (py "current_password"),dictGet body (py "new_password"))
    | _, _ => none
  else none

def Request.deletes (request : Request) : Option PyStr :=
  if request.endpoint = some .deleteAccount then request.userId else none

end Thintuit.Server
