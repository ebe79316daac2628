import Mathlib.Data.String.Basic
import WasmiPlugin.Foundation.Lines
import WasmiPlugin.Foundation.SortedMap
import WasmiPlugin.Foundation.Utf8

namespace WasmiPlugin
namespace Rpc

open Foundation

/-!
# JSON-RPC messages and their JSON form

The messages are serialized by derived code, except for `RpcError`, whose
encoding as a code and a message is written by hand.  `RpcMessage` is an
untagged enumeration: the encoding does not say which variant it is, and the
decoder tries the three structures in their order of declaration.

A `Json` is the tree that a decoder sees before it is given a type.  Members of
an object are kept as the text has them, so a repeated member is visible to the
derived decoders, which reject it.  Numbers keep the three shapes of
`serde_json`; a floating-point number is its bits, because no decoder here
looks inside one.

Parameters and results have the type `serde_json::Value`, whose objects are
ordered maps: decoding one sorts its members by their names and keeps the last
of those that repeat a name.  A `Value` is a tree that this leaves alone.
-/

/-- The number of a `serde_json::Value`, with the range that each kind of
integer has there. -/
inductive Number where
  | posInt (value : UInt64)
  | negInt (value : { value : Int64 // value < 0 })
  | float (bits : UInt64)
  deriving DecidableEq, Repr

/-- The untyped content of a line. -/
inductive Json where
  | null
  | bool (value : Bool)
  | num (value : Number)
  | str (value : String)
  | arr (items : List Json)
  | obj (members : List (String × Json))
  deriving Repr

/-! ## Values -/

mutual

/-- The tree with the members of each object collected into a map. -/
def Json.sorted : Json -> Json
  | .null => .null
  | .bool value => .bool value
  | .num value => .num value
  | .str value => .str value
  | .arr items => .arr (sortedItems items)
  | .obj members => .obj (SortedMap.collect (sortedMembers members))

def sortedItems : List Json -> List Json
  | [] => []
  | item :: items => item.sorted :: sortedItems items

def sortedMembers : List (String × Json) -> List (String × Json)
  | [] => []
  | (name, value) :: members => (name, value.sorted) :: sortedMembers members

end

theorem sortedMembers_eq (members : List (String × Json)) :
    sortedMembers members = members.map fun entry => (entry.1, entry.2.sorted) := by
  induction members with
  | nil => rfl
  | cons entry members inductionHypothesis =>
      rw [sortedMembers, inductionHypothesis, List.map_cons]

mutual

theorem Json.sorted_sorted : (json : Json) -> json.sorted.sorted = json.sorted
  | .null | .bool _ | .num _ | .str _ => rfl
  | .arr items => by
      rw [Json.sorted, Json.sorted, sortedItems_sorted]
  | .obj members => by
      have fixed : sortedMembers (SortedMap.collect (sortedMembers members)) =
          SortedMap.collect (sortedMembers members) := by
        rw [sortedMembers_eq (SortedMap.collect _)]
        refine (List.map_congr_left fun entry listed => ?_).trans (List.map_id _)
        rcases (SortedMap.mem_collect _ _).mp listed with ⟨before, after, same, _⟩
        have within : entry ∈ sortedMembers members := by
          rw [same]
          exact List.mem_append_right _ List.mem_cons_self
        rw [sortedMembers_sorted members entry within]
        rfl
      rw [Json.sorted, Json.sorted, fixed,
        SortedMap.collect_of_sorted (SortedMap.sorted_collect _)]

theorem sortedItems_sorted : (items : List Json) ->
    sortedItems (sortedItems items) = sortedItems items
  | [] => rfl
  | item :: items => by
      rw [sortedItems, sortedItems, item.sorted_sorted, sortedItems_sorted items]

theorem sortedMembers_sorted : (members : List (String × Json)) -> forall entry,
    entry ∈ sortedMembers members -> entry.2.sorted = entry.2
  | [], _, listed => absurd listed List.not_mem_nil
  | (name, value) :: members, entry, listed => by
      rcases List.mem_cons.mp listed with first | later
      · rw [first]
        exact value.sorted_sorted
      · exact sortedMembers_sorted members entry later

end

/-- A `serde_json::Value`: a tree that sorting leaves alone. -/
structure Value where
  json : Json
  sorted : json.sorted = json

def Value.null : Value := ⟨.null, rfl⟩

def Value.bool (value : Bool) : Value := ⟨.bool value, rfl⟩

def Value.num (value : Number) : Value := ⟨.num value, rfl⟩

def Value.str (value : String) : Value := ⟨.str value, rfl⟩

/-- The value that `serde_json` makes of a tree, whether it reads the tree from a text
or is given the members one by one. -/
def Value.ofJson (json : Json) : Value where
  json := json.sorted
  sorted := json.sorted_sorted

@[simp] theorem Value.ofJson_json (value : Value) : Value.ofJson value.json = value := by
  rcases value with ⟨json, sorted⟩
  simp only [Value.ofJson, sorted]

/-! ## Messages -/

/-- The error of a call, with the five codes that are fixed and any other in `Custom`. -/
inductive RpcError where
  | parseError
  | invalidRequest
  | methodNotFound
  | invalidParams
  | internalError
  | custom (text : String)
  deriving DecidableEq, Repr

structure RpcRequest where
  jsonrpc : String
  id : UInt64
  method : String
  params : Value

structure RpcResponse where
  jsonrpc : String
  id : UInt64
  result : Value

structure RpcErrorResponse where
  jsonrpc : String
  id : UInt64
  error : RpcError

inductive RpcMessage where
  | rpcRequest (request : RpcRequest)
  | rpcResponse (response : RpcResponse)
  | rpcErrorResponse (response : RpcErrorResponse)

def jsonRpcVersion : String := "2.0"

/-! ## The code and the message of an error -/

namespace RpcError

def code : RpcError -> Int64
  | .parseError => -32700
  | .invalidRequest => -32600
  | .methodNotFound => -32601
  | .invalidParams => -32602
  | .internalError => -32603
  | .custom _ => -32000

/-- `RpcError::message`, the text of the error's `Display`. -/
def message : RpcError -> String
  | .parseError => "Parse error"
  | .invalidRequest => "Invalid request"
  | .methodNotFound => "Method not found"
  | .invalidParams => "Invalid params"
  | .internalError => "Internal error"
  | .custom text => text

/-- The match at the end of `RpcError::deserialize`. -/
def ofData (code : Int64) (message : String) : RpcError :=
  if code = -32700 then .parseError
  else if code = -32600 then .invalidRequest
  else if code = -32601 then .methodNotFound
  else if code = -32602 then .invalidParams
  else if code = -32603 then .internalError
  else .custom message

/-- The code and the message determine the error.  For the five fixed errors
the code alone does, and for a custom error the message is its whole content. -/
theorem ofData_code_message (error : RpcError) : ofData error.code error.message = error := by
  cases error <;> rfl

end RpcError

/-! ## Serialization -/

/-- A negative `i64` is written as such, any other as an unsigned integer. -/
def Number.ofInt (value : Int64) : Number :=
  if negative : value < 0 then .negInt ⟨value, negative⟩ else .posInt value.toUInt64

def RpcError.serialize (error : RpcError) : Json :=
  .obj [("code", .num (Number.ofInt error.code)), ("message", .str error.message)]

def RpcRequest.serialize (request : RpcRequest) : Json :=
  .obj [("jsonrpc", .str request.jsonrpc), ("id", .num (.posInt request.id)),
    ("method", .str request.method), ("params", request.params.json)]

def RpcResponse.serialize (response : RpcResponse) : Json :=
  .obj [("jsonrpc", .str response.jsonrpc), ("id", .num (.posInt response.id)),
    ("result", response.result.json)]

def RpcErrorResponse.serialize (response : RpcErrorResponse) : Json :=
  .obj [("jsonrpc", .str response.jsonrpc), ("id", .num (.posInt response.id)),
    ("error", response.error.serialize)]

def RpcMessage.serialize : RpcMessage -> Json
  | .rpcRequest request => request.serialize
  | .rpcResponse response => response.serialize
  | .rpcErrorResponse response => response.serialize

/-! ## Deserialization -/

/-- The value of a member, if it occurs exactly once: a missing member and a
repeated one are both errors of a derived decoder. -/
def member (members : List (String × Json)) (name : String) : Option Json :=
  match members.filter fun entry => entry.1 == name with
  | [entry] => some entry.2
  | _ => none

/-- The fields of a derived structure, in order.  An object gives them by name
and its other members are ignored; an array gives them by position and must
have exactly as many items. -/
def structFields (names : List String) : Json -> Option (List Json)
  | .obj members => names.mapM (member members)
  | .arr items => if items.length = names.length then some items else none
  | _ => none

def Json.asString : Json -> Option String
  | .str value => some value
  | _ => none

def Json.asU64 : Json -> Option UInt64
  | .num (.posInt value) => some value
  | _ => none

def Value.asU64 (value : Value) : Option UInt64 :=
  value.json.asU64

def Json.asI64 : Json -> Option Int64
  | .num (.posInt value) => if value.toNat < 2 ^ 63 then some value.toInt64 else none
  | .num (.negInt value) => some value.1
  | _ => none

def RpcRequest.deserialize (json : Json) : Option RpcRequest :=
  match structFields ["jsonrpc", "id", "method", "params"] json with
  | some [jsonrpc, id, method, params] => do
      let jsonrpc ← jsonrpc.asString
      let id ← id.asU64
      let method ← method.asString
      pure { jsonrpc, id, method, params := Value.ofJson params }
  | _ => none

def RpcResponse.deserialize (json : Json) : Option RpcResponse :=
  match structFields ["jsonrpc", "id", "result"] json with
  | some [jsonrpc, id, result] => do
      let jsonrpc ← jsonrpc.asString
      let id ← id.asU64
      pure { jsonrpc, id, result := Value.ofJson result }
  | _ => none

def RpcError.deserialize (json : Json) : Option RpcError :=
  match structFields ["code", "message"] json with
  | some [code, message] => do
      let code ← code.asI64
      let message ← message.asString
      pure (RpcError.ofData code message)
  | _ => none

def RpcErrorResponse.deserialize (json : Json) : Option RpcErrorResponse :=
  match structFields ["jsonrpc", "id", "error"] json with
  | some [jsonrpc, id, error] => do
      let jsonrpc ← jsonrpc.asString
      let id ← id.asU64
      let error ← RpcError.deserialize error
      pure { jsonrpc, id, error }
  | _ => none

/-- The variants of the untagged enumeration are tried in their order. -/
def RpcMessage.deserialize (json : Json) : Option RpcMessage :=
  match RpcRequest.deserialize json with
  | some request => some (.rpcRequest request)
  | none =>
      match RpcResponse.deserialize json with
      | some response => some (.rpcResponse response)
      | none => (RpcErrorResponse.deserialize json).map .rpcErrorResponse

/-! ## Round trips -/

theorem RpcError.deserialize_serialize (error : RpcError) :
    RpcError.deserialize error.serialize = some error := by
  have fields : structFields ["code", "message"] error.serialize =
      some [.num (Number.ofInt error.code), .str error.message] := by
    simp [structFields, RpcError.serialize, member]
  have number : Json.asI64 (.num (Number.ofInt error.code)) = some error.code := by
    cases error <;> rfl
  simp only [RpcError.deserialize, fields, number, Json.asString, Option.bind_eq_bind,
    Option.bind_some, RpcError.ofData_code_message, pure]

/-- A request is read back as a request. -/
theorem RpcRequest.deserialize_serialize (request : RpcRequest) :
    RpcRequest.deserialize request.serialize = some request := by
  have fields : structFields ["jsonrpc", "id", "method", "params"] request.serialize =
      some [.str request.jsonrpc, .num (.posInt request.id), .str request.method,
        request.params.json] := by
    simp [structFields, RpcRequest.serialize, member]
  simp only [RpcRequest.deserialize, fields, Json.asString, Json.asU64, Value.ofJson_json,
    Option.bind_eq_bind, Option.bind_some, pure]

theorem RpcResponse.deserialize_serialize (response : RpcResponse) :
    RpcResponse.deserialize response.serialize = some response := by
  have fields : structFields ["jsonrpc", "id", "result"] response.serialize =
      some [.str response.jsonrpc, .num (.posInt response.id), response.result.json] := by
    simp [structFields, RpcResponse.serialize, member]
  simp only [RpcResponse.deserialize, fields, Json.asString, Json.asU64, Value.ofJson_json,
    Option.bind_eq_bind, Option.bind_some, pure]

theorem RpcErrorResponse.deserialize_serialize (response : RpcErrorResponse) :
    RpcErrorResponse.deserialize response.serialize = some response := by
  have fields : structFields ["jsonrpc", "id", "error"] response.serialize =
      some [.str response.jsonrpc, .num (.posInt response.id), response.error.serialize] := by
    simp [structFields, RpcErrorResponse.serialize, member]
  simp only [RpcErrorResponse.deserialize, fields, Json.asString, Json.asU64,
    RpcError.deserialize_serialize, Option.bind_eq_bind, Option.bind_some, pure]

/-- Neither kind of reply has a method, so neither is taken for a request. -/
theorem RpcRequest.deserialize_response (response : RpcResponse) :
    RpcRequest.deserialize response.serialize = none := by
  have fields : structFields ["jsonrpc", "id", "method", "params"] response.serialize = none := by
    simp [structFields, RpcResponse.serialize, member]
  simp only [RpcRequest.deserialize, fields]

theorem RpcRequest.deserialize_errorResponse (response : RpcErrorResponse) :
    RpcRequest.deserialize response.serialize = none := by
  have fields : structFields ["jsonrpc", "id", "method", "params"] response.serialize = none := by
    simp [structFields, RpcErrorResponse.serialize, member]
  simp only [RpcRequest.deserialize, fields]

/-- An error reply has no result, so it is not taken for a response. -/
theorem RpcResponse.deserialize_errorResponse (response : RpcErrorResponse) :
    RpcResponse.deserialize response.serialize = none := by
  have fields : structFields ["jsonrpc", "id", "result"] response.serialize = none := by
    simp [structFields, RpcErrorResponse.serialize, member]
  simp only [RpcResponse.deserialize, fields]

/-- Every message is read back as itself, in its own variant. -/
theorem RpcMessage.deserialize_serialize (message : RpcMessage) :
    RpcMessage.deserialize message.serialize = some message := by
  cases message with
  | rpcRequest request =>
      simp only [RpcMessage.deserialize, RpcMessage.serialize, RpcRequest.deserialize_serialize]
  | rpcResponse response =>
      simp only [RpcMessage.deserialize, RpcMessage.serialize, RpcRequest.deserialize_response,
        RpcResponse.deserialize_serialize]
  | rpcErrorResponse response =>
      simp only [RpcMessage.deserialize, RpcMessage.serialize,
        RpcRequest.deserialize_errorResponse, RpcResponse.deserialize_errorResponse,
        RpcErrorResponse.deserialize_serialize, Option.map_some]

end Rpc
end WasmiPlugin
