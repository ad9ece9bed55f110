import Gfw.Http.Answers

namespace Gfw.Http

open Gfw.Data

/-! The accounts of `main`: what a player is told depends on the requests answered before, on
whatever connections they came. -/

/-- What `from_json` reads. -/
structure ReqData where
  nickname : String
  password : String
deriving DecidableEq, Repr

structure ResData where
  id : Nat
  nickname : String
  password : String
  kills : Nat
deriving DecidableEq, Repr

/-- `res_body`, with the members that it may have. -/
structure ResBody where
  result : String
  msg : Option String := none
  error : Option String := none
  data : Option ResData := none
deriving DecidableEq, Repr

/-- `nlohmann::json`, which is not in the source: what it throws is its error, but for `dump`,
which is taken to return. -/
structure Json (J : Type) where
  parse : List UInt8 → Except String J
  member : J → String → Except String J
  getString : J → Except String String
  dump : ResBody → String

abbrev Accounts := String → Option String

namespace Json

variable {J : Type} (json : Json J)

def fromJson (j : J) : Except String ReqData := do
  let nickname ← json.getString (← json.member j "nickname")
  let password ← json.getString (← json.member j "password")
  return ⟨nickname, password⟩

/-- The body is parsed as a C string, which ends at the first zero. -/
def reqData (body : List UInt8) : Except String ReqData := do
  json.fromJson (← json.parse (body.takeWhile (· ≠ 0)))

def registerPath : String := "/user/register-user"

section Routes

variable {json} {accounts : Accounts} {req : Request} {data : ReqData}

end Routes

/-- What a request registers, if it is the first for its nickname. -/
def registration (req : Request) : Option ReqData :=
  if req.verb = .post ∧
    path req.target = registerPath then (json.reqData req.body).toOption else none

/-- The password that was registered first for a nickname. -/
def registered (asked : List Request) : Accounts := fun nickname =>
  asked.findSome? fun req =>
    ((json.registration req).filter (·.nickname = nickname)).map ReqData.password

section Registered

variable {json} {accounts : Accounts} {req : Request} {asked : List Request}

theorem registered_concat (nickname : String) :
    json.registered (asked ++ [req]) nickname =
      (json.registered asked nickname).or
        (((json.registration req).filter (·.nickname = nickname)).map ReqData.password) := by
  rw [registered, registered, List.findSome?_append, List.findSome?_singleton]

end Registered

def told (body : ResBody) : Response := textResponse .ok "application/json" (json.dump body)

section Remembers

variable {json} {req : Request} {asked : List Request}

end Remembers

end Json

/-- The request that a step has answered. -/
def Event.asked {k : Nat} : Event k → Option Request
  | .answered _ _ _ req _ => some req
  | .fed .. | .closed .. | .other => none

namespace Server

variable {k : Nat} {π J : Type} {json : Json J} {parser : RequestParser π}
  {s t : Server k Accounts π}
  {label : Choice k × Event k} {visited : List (Server k Accounts π × Choice k × Event k)}
  {started : Nat}

/-- Objects of texts, of which some are known, with nothing to escape. -/
def plain (known : List (List UInt8 × List (String × String))) : Json (List (String × String)) where
  parse text := match known.lookup text with
    | some j => .ok j
    | none => .error "parse error"
  member j key := match j.lookup key with
    | some text => .ok [(key, text)]
    | none => .error "key not found"
  getString j := match j with
    | [(_, text)] => .ok text
    | _ => .error "type must be string"
  dump body :=
    let data := body.data.elim "" fun data =>
      "\"data\":\x7b\"id\":" ++ toString data.id ++ ",\"kills\":" ++ toString data.kills ++
        ",\"nickname\":\"" ++
        data.nickname ++ "\",\"password\":\"" ++ data.password ++ "\"\x7d,"
    let error := body.error.elim "" fun error => "\"error\":\"" ++ error ++ "\","
    let msg := body.msg.elim "" fun msg => "\"msg\":\"" ++ msg ++ "\","
    "\x7b" ++ data ++ error ++ msg ++ "\"result\":\"" ++ body.result ++ "\"\x7d"

end Server

end Gfw.Http
