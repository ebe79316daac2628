import WasmiPlugin.Rpc.Transport

namespace WasmiPlugin
namespace Rpc

open Foundation

/-!
# Which values are messages

The decoder takes a value for a message of the first variant whose fields it
carries, each once and with the right type.  It looks at nothing else: an object
may have more members, the version may be any text, and an array may stand for an
object, with the fields in the order of their declaration.  This module states
the grammar that results, apart from the decoder, and compares it with the
messages of JSON-RPC 2.0.
-/

/-! ## The grammar of the decoder -/

/-- A name stands once among the members of an object, and with this value. -/
def OnlyMember (members : List (String × Json)) (name : String) (value : Json) : Prop :=
  Exists fun before => Exists fun after => members = before ++ (name, value) :: after ∧
    (forall entry, entry ∈ before -> entry.1 ≠ name) ∧
    forall entry, entry ∈ after -> entry.1 ≠ name

/-- A value carries fields: as an object in which each of the names stands once, or as
an array, by their positions. -/
inductive Carries (names : List String) (fields : List Json) : Json -> Prop
  | object {members : List (String × Json)} :
      List.Forall₂ (OnlyMember members) names fields -> Carries names fields (.obj members)
  | array : fields.length = names.length -> Carries names fields (.arr fields)

/-- A request: a text for the version, an id, a method, and any parameters. -/
def CarriesRequest (value : Json) (request : RpcRequest) : Prop :=
  Exists fun params => request.params = Value.ofJson params ∧
    Carries ["jsonrpc", "id", "method", "params"]
      [.str request.jsonrpc, .num (.posInt request.id), .str request.method, params] value

/-- A response: a text for the version, an id, and any result. -/
def CarriesResponse (value : Json) (response : RpcResponse) : Prop :=
  Exists fun result => response.result = Value.ofJson result ∧
    Carries ["jsonrpc", "id", "result"]
      [.str response.jsonrpc, .num (.posInt response.id), result] value

/-- The integer that a number stands for, unless it is a float. -/
def Number.integer : Number -> Option Int
  | .posInt value => some value.toNat
  | .negInt value => some value.1.toInt
  | .float _ => none

/-- An error: an integer in the range of an `i64` and a text. -/
def CarriesError (value : Json) (error : RpcError) : Prop :=
  Exists fun number => Exists fun code : Int64 => Exists fun message =>
    Number.integer number = some code.toInt ∧ error = RpcError.ofData code message ∧
    Carries ["code", "message"] [.num number, .str message] value

/-- An error response: a text for the version, an id, and an error. -/
def CarriesErrorResponse (value : Json) (response : RpcErrorResponse) : Prop :=
  Exists fun error => CarriesError error response.error ∧
    Carries ["jsonrpc", "id", "error"]
      [.str response.jsonrpc, .num (.posInt response.id), error] value

/-- In a decoded value the members of an object stand in the order of their names,
and each has the last value that its name is given in the text. -/
theorem Value.ofJson_obj (members : List (String × Json)) :
    Exists fun kept => (Value.ofJson (.obj members)).json = .obj kept ∧ SortedMap.Sorted kept ∧
      forall name value, (name, value) ∈ kept ↔
        Exists fun before => Exists fun last => Exists fun after =>
          members = before ++ (name, last) :: after ∧ value = last.sorted ∧
            forall entry, entry ∈ after -> entry.1 ≠ name := by
  refine ⟨_, rfl, SortedMap.sorted_collect _, fun name value => ?_⟩
  rw [SortedMap.mem_collect, sortedMembers_eq]
  constructor
  · rintro ⟨before, after, same, others⟩
    rcases List.map_eq_append_iff.mp same with ⟨earlier, rest, split, _, restSame⟩
    rcases List.map_eq_cons_iff.mp restSame with ⟨entry, later, restSplit, entrySame, laterSame⟩
    rcases Prod.mk.inj entrySame with ⟨rfl, sorted⟩
    refine ⟨earlier, entry.2, later, split.trans (restSplit ▸ rfl), sorted.symm, ?_⟩
    intro other listed
    apply others (other.1, other.2.sorted)
    rw [← laterSame]
    exact List.mem_map_of_mem listed
  · rintro ⟨before, last, after, rfl, rfl, others⟩
    refine ⟨_, _, List.map_append, fun other listed => ?_⟩
    rcases List.mem_map.mp listed with ⟨entry, member, rfl⟩
    exact others entry member

example : (Value.ofJson (.obj [("b", .null), ("a", .bool false), ("a", .bool true)])).json =
    .obj [("a", .bool true), ("b", .null)] := rfl

/-! ## The decoder follows the grammar -/

theorem member_iff (members : List (String × Json)) (name : String) (value : Json) :
    member members name = some value ↔ OnlyMember members name value := by
  unfold member
  constructor
  · intro found
    split at found
    · next entry single =>
        cases found
        rcases List.filter_eq_cons_iff.mp single with ⟨before, after, same, others, named, rest⟩
        have sameName : entry.1 = name := by simpa using named
        refine ⟨before, after, ?_, ?_, ?_⟩
        · rw [same, ← sameName]
        · intro other listed
          simpa using others other listed
        · intro other listed
          simpa using List.filter_eq_nil_iff.mp rest other listed
    · cases found
  · rintro ⟨before, after, same, others, rest⟩
    have single : (members.filter fun entry => entry.1 == name) = [(name, value)] := by
      refine List.filter_eq_cons_iff.mpr ⟨before, after, same, ?_, by simp, ?_⟩
      · intro other listed
        simpa using others other listed
      · apply List.filter_eq_nil_iff.mpr
        intro other listed
        simpa using rest other listed
    rw [single]

private theorem mapM_iff (members : List (String × Json)) (names : List String)
    (fields : List Json) :
    names.mapM (member members) = some fields ↔
      List.Forall₂ (OnlyMember members) names fields := by
  induction names generalizing fields with
  | nil =>
      rw [List.mapM_nil, List.forall₂_nil_left_iff]
      exact ⟨fun same => (Option.some.inj same).symm, fun none => by rw [none]; rfl⟩
  | cons name names inductionHypothesis =>
      simp only [List.mapM_cons, Option.bind_eq_bind, Option.bind_eq_some_iff, Option.pure_def,
        Option.some.injEq, List.forall₂_cons_left_iff, member_iff, inductionHypothesis]
      constructor
      · rintro ⟨value, first, values, others, same⟩
        exact ⟨value, values, first, others, same.symm⟩
      · rintro ⟨value, values, first, others, same⟩
        exact ⟨value, first, values, others, same.symm⟩

/-- The fields that a derived decoder sees are those that the value carries. -/
theorem structFields_iff (names : List String) (fields : List Json) (value : Json) :
    structFields names value = some fields ↔ Carries names fields value := by
  cases value with
  | obj members =>
      rw [structFields, mapM_iff]
      exact ⟨.object, fun carries => (by cases carries with | object all => exact all)⟩
  | arr items =>
      simp only [structFields]
      constructor
      · intro found
        split at found
        · next long =>
            cases found
            exact .array long
        · cases found
      · intro carries
        cases carries with
        | array long => exact if_pos long
  | null | bool | num | str =>
      exact ⟨fun found => (by cases found), fun carries => (by cases carries)⟩

theorem Json.asString_iff {json : Json} {value : String} :
    json.asString = some value ↔ json = .str value := by
  cases json <;> simp [Json.asString]

theorem Json.asU64_iff {json : Json} {value : UInt64} :
    json.asU64 = some value ↔ json = .num (.posInt value) := by
  cases json with
  | num number => cases number <;> simp [Json.asU64]
  | null | bool | str | arr | obj => simp [Json.asU64]

private theorem toInt_toInt64 {value : UInt64} (small : value.toNat < 2 ^ 63) :
    value.toInt64.toInt = value.toNat :=
  BitVec.toInt_eq_toNat_of_lt (show 2 * value.toNat < 2 ^ 64 by omega)

theorem Json.asI64_iff {json : Json} {value : Int64} :
    json.asI64 = some value ↔
      Exists fun number => json = .num number ∧ number.integer = some value.toInt := by
  constructor
  · intro read
    unfold Json.asI64 at read
    split at read
    · next number =>
        split at read
        · next small =>
            cases read
            exact ⟨_, rfl, congrArg some (toInt_toInt64 small).symm⟩
        · cases read
    · next number =>
        cases read
        exact ⟨_, rfl, rfl⟩
    · cases read
  · rintro ⟨number, rfl, integer⟩
    cases number with
    | posInt number =>
        have same : (number.toNat : Int) = value.toInt := Option.some.inj integer
        have small : number.toNat < 2 ^ 63 := by
          have bound := value.toInt_lt
          omega
        rw [Json.asI64, if_pos small, Option.some.injEq, ← Int64.toInt_inj, toInt_toInt64 small,
          same]
    | negInt number => exact congrArg some (Int64.toInt_inj.mp (Option.some.inj integer))
    | float => cases integer

theorem RpcRequest.deserialize_iff (value : Json) (request : RpcRequest) :
    RpcRequest.deserialize value = some request ↔ CarriesRequest value request := by
  unfold CarriesRequest
  simp only [← structFields_iff, RpcRequest.deserialize]
  constructor
  · intro decoded
    split at decoded
    · next jsonrpc id method params found =>
        simp only [Option.bind_eq_bind, Option.bind_eq_some_iff, Json.asString_iff,
          Json.asU64_iff, Option.pure_def, Option.some.injEq] at decoded
        rcases decoded with ⟨version, rfl, number, rfl, name, rfl, rfl⟩
        exact ⟨params, rfl, found⟩
    · cases decoded
  · rintro ⟨params, same, found⟩
    simp only [found, Json.asString, Json.asU64, Option.bind_eq_bind, Option.bind_some,
      Option.pure_def, ← same]

theorem RpcResponse.deserialize_iff (value : Json) (response : RpcResponse) :
    RpcResponse.deserialize value = some response ↔ CarriesResponse value response := by
  unfold CarriesResponse
  simp only [← structFields_iff, RpcResponse.deserialize]
  constructor
  · intro decoded
    split at decoded
    · next jsonrpc id result found =>
        simp only [Option.bind_eq_bind, Option.bind_eq_some_iff, Json.asString_iff,
          Json.asU64_iff, Option.pure_def, Option.some.injEq] at decoded
        rcases decoded with ⟨version, rfl, number, rfl, rfl⟩
        exact ⟨result, rfl, found⟩
    · cases decoded
  · rintro ⟨result, same, found⟩
    simp only [found, Json.asString, Json.asU64, Option.bind_eq_bind, Option.bind_some,
      Option.pure_def, ← same]

theorem RpcError.deserialize_iff (value : Json) (error : RpcError) :
    RpcError.deserialize value = some error ↔ CarriesError value error := by
  unfold CarriesError
  simp only [← structFields_iff, RpcError.deserialize]
  constructor
  · intro decoded
    split at decoded
    · next code message found =>
        simp only [Option.bind_eq_bind, Option.bind_eq_some_iff, Json.asString_iff,
          Json.asI64_iff, Option.pure_def, Option.some.injEq] at decoded
        rcases decoded with ⟨code, ⟨number, rfl, integer⟩, text, rfl, rfl⟩
        exact ⟨number, code, text, integer, rfl, found⟩
    · cases decoded
  · rintro ⟨number, code, text, integer, rfl, found⟩
    have read := Json.asI64_iff.mpr ⟨number, rfl, integer⟩
    simp only [found, read, Json.asString, Option.bind_eq_bind, Option.bind_some, Option.pure_def]

theorem RpcErrorResponse.deserialize_iff (value : Json) (response : RpcErrorResponse) :
    RpcErrorResponse.deserialize value = some response ↔ CarriesErrorResponse value response := by
  unfold CarriesErrorResponse
  simp only [← structFields_iff, ← RpcError.deserialize_iff, RpcErrorResponse.deserialize]
  constructor
  · intro decoded
    split at decoded
    · next jsonrpc id error found =>
        simp only [Option.bind_eq_bind, Option.bind_eq_some_iff, Json.asString_iff,
          Json.asU64_iff, Option.pure_def, Option.some.injEq] at decoded
        rcases decoded with ⟨version, rfl, number, rfl, failure, read, rfl⟩
        exact ⟨error, read, found⟩
    · cases decoded
  · rintro ⟨error, read, found⟩
    simp only [found, read, Json.asString, Json.asU64, Option.bind_eq_bind, Option.bind_some,
      Option.pure_def]

/-! ## Lines -/

/-- The line of a value is accepted as what the grammar says: as a request, else
as a response, else as an error response.  Every other line is a parse error. -/
structure FollowsGrammar (text : JsonText) (line : List UInt8) (value : Json) : Prop where
  request : forall request, decodeLine text line = some (.rpcRequest request) ↔
    CarriesRequest value request
  response : forall response, decodeLine text line = some (.rpcResponse response) ↔
    CarriesResponse value response ∧ forall request, ¬ CarriesRequest value request
  errorResponse : forall response, decodeLine text line = some (.rpcErrorResponse response) ↔
    CarriesErrorResponse value response ∧ (forall request, ¬ CarriesRequest value request) ∧
      forall response, ¬ CarriesResponse value response
  accepted : forall message, decodeLine text line = some message -> forall transport task,
    Transport.processLine text transport task line = transport.processMessage task message
  refused : (forall request, ¬ CarriesRequest value request) ->
    (forall response, ¬ CarriesResponse value response) ->
    (forall response, ¬ CarriesErrorResponse value response) -> forall transport task,
    Transport.processLine text transport task line =
      transport.setPhase task (.failed .parseError)

private theorem none_iff {Message : Type} {decoded : Option Message}
    {carries : Message -> Prop} (iff : forall message, decoded = some message ↔ carries message) :
    decoded = none ↔ forall message, ¬ carries message := by
  rw [Option.eq_none_iff_forall_ne_some]
  exact forall_congr' fun message => not_congr (iff message)

/-- `process_next_line` follows the grammar, whatever value is on the line. -/
theorem processLine_follows_grammar (text : JsonText) {line : List UInt8} {value : Json}
    (read : text.fromStr (trim line) = some value) : FollowsGrammar text line value := by
  have decoded : decodeLine text line = RpcMessage.deserialize value := by
    rw [decodeLine, read, Option.bind_some]
  have requests := RpcRequest.deserialize_iff value
  have responses := RpcResponse.deserialize_iff value
  have errors := RpcErrorResponse.deserialize_iff value
  have accepted : forall message, decodeLine text line = some message -> forall transport task,
      Transport.processLine text transport task line =
        transport.processMessage task message := by
    intro message accepts transport task
    rw [Transport.processLine, accepts]
  have refused : decodeLine text line = none -> forall transport task,
      Transport.processLine text transport task line =
        transport.setPhase task (.failed .parseError) := by
    intro refuses transport task
    rw [Transport.processLine, refuses]
  have noRequest := none_iff requests
  have noResponse := none_iff responses
  have noError := none_iff errors
  rw [RpcMessage.deserialize] at decoded
  refine ⟨fun request => ?_, fun response => ?_, fun response => ?_, accepted, ?_⟩
  · rw [decoded, ← requests]
    cases RpcRequest.deserialize value with
    | some message => simp
    | none => cases RpcResponse.deserialize value <;> simp
  · rw [decoded, ← responses, ← noRequest]
    cases RpcRequest.deserialize value with
    | some message => simp
    | none => cases RpcResponse.deserialize value <;> simp
  · rw [decoded, ← errors, ← noRequest, ← noResponse]
    cases RpcRequest.deserialize value with
    | some message => simp
    | none => cases RpcResponse.deserialize value <;> simp
  · rw [← noRequest, ← noResponse, ← noError]
    intro first second third
    apply refused
    rw [decoded, first, second, third]
    rfl

/-! ## JSON-RPC 2.0 -/

namespace JsonRpc2

def HasHeader (members : List (String × Json)) : Prop :=
  ("jsonrpc", .str "2.0") ∈ members ∧
    Exists fun id : UInt64 => ("id", .num (.posInt id)) ∈ members

def Lacks (members : List (String × Json)) (name : String) : Prop :=
  forall entry, entry ∈ members -> entry.1 ≠ name

def IsRequest : Json -> Prop
  | .obj members => HasHeader members ∧
      (Exists fun method => ("method", .str method) ∈ members) ∧
      Lacks members "result" ∧ Lacks members "error"
  | _ => False

def IsResponse : Json -> Prop
  | .obj members => HasHeader members ∧
      (Exists fun result => ("result", result) ∈ members) ∧
      Lacks members "error" ∧ Lacks members "method"
  | _ => False

/-- An error object has an integer for its code, as far as `serde_json` keeps it as
one, and a text for its message. -/
def IsError : Json -> Prop
  | .obj members =>
      (Exists fun number => ("code", .num number) ∈ members ∧ number.integer ≠ none) ∧
      Exists fun message => ("message", .str message) ∈ members
  | _ => False

def IsErrorResponse : Json -> Prop
  | .obj members => HasHeader members ∧
      (Exists fun error => ("error", error) ∈ members ∧ IsError error) ∧
      Lacks members "result" ∧ Lacks members "method"
  | _ => False

/-- The decoder takes a value for a request, a response or an error response exactly
if the value is such a message. -/
structure Accepted (value : Json) : Prop where
  request : (Exists fun request =>
    RpcMessage.deserialize value = some (.rpcRequest request)) ↔ IsRequest value
  response : (Exists fun response =>
    RpcMessage.deserialize value = some (.rpcResponse response)) ↔ IsResponse value
  errorResponse : (Exists fun response =>
    RpcMessage.deserialize value = some (.rpcErrorResponse response)) ↔ IsErrorResponse value

end JsonRpc2

/-- A request of another version. -/
def oldRequest : Json :=
  .obj [("jsonrpc", .str "1.0"), ("id", .num (.posInt 1)), ("method", .str "ping"),
    ("params", .null)]

def bareRequest : Json :=
  .obj [("jsonrpc", .str "2.0"), ("id", .num (.posInt 1)), ("method", .str "ping")]

/-- A reply with a result and an error. -/
def doubleReply : Json :=
  .obj [("jsonrpc", .str "2.0"), ("id", .num (.posInt 1)), ("result", .null),
    ("error", RpcError.internalError.serialize)]

def positionalResponse : Json :=
  .arr [.str "2.0", .num (.posInt 1), .null]

def repeatedVersion : Json :=
  .obj [("jsonrpc", .str "2.0"), ("jsonrpc", .str "2.0"), ("id", .num (.posInt 1)),
    ("result", .null)]

/-- An error response whose code is not an `i64`. -/
def largeCode : Json :=
  .obj [("jsonrpc", .str "2.0"), ("id", .num (.posInt 1)),
    ("error", .obj [("code", .num (.posInt 9223372036854775808)), ("message", .str "large")])]

/-- The decoder does not accept just the messages of JSON-RPC 2.0: it takes the
first, the third and the fourth of these, which are none, and refuses the others,
which are. -/
theorem decoder_not_jsonRpc2 :
    ¬ JsonRpc2.Accepted oldRequest ∧ ¬ JsonRpc2.Accepted bareRequest ∧
      ¬ JsonRpc2.Accepted doubleReply ∧ ¬ JsonRpc2.Accepted positionalResponse ∧
      ¬ JsonRpc2.Accepted repeatedVersion ∧ ¬ JsonRpc2.Accepted largeCode := by
  refine ⟨?_, ?_, ?_, ?_, ?_, ?_⟩ <;> intro law
  · have request := law.request.mp ⟨_, rfl⟩
    simp [JsonRpc2.IsRequest, JsonRpc2.HasHeader, oldRequest] at request
  · have accepted := law.request.mpr ?_
    · rcases accepted with ⟨request, decoded⟩
      cases decoded
    · simp [JsonRpc2.IsRequest, JsonRpc2.HasHeader, JsonRpc2.Lacks, bareRequest]
  · have response := law.response.mp ⟨_, rfl⟩
    simp [JsonRpc2.IsResponse, JsonRpc2.Lacks, doubleReply] at response
  · exact law.response.mp ⟨_, rfl⟩
  · have accepted := law.response.mpr ?_
    · rcases accepted with ⟨response, decoded⟩
      cases decoded
    · simp [JsonRpc2.IsResponse, JsonRpc2.HasHeader, JsonRpc2.Lacks, repeatedVersion]
  · have accepted := law.errorResponse.mpr ?_
    · rcases accepted with ⟨response, decoded⟩
      cases decoded
    · simp [JsonRpc2.IsErrorResponse, JsonRpc2.HasHeader, JsonRpc2.IsError, JsonRpc2.Lacks,
        Number.integer, largeCode]

/-- The request of the other version is on a line and is accepted. -/
theorem oldRequest_follows_grammar :
    FollowsGrammar (compactText [oldRequest]) ((compact oldRequest).getD []) oldRequest :=
  processLine_follows_grammar (compactText [oldRequest]) rfl

end Rpc
end WasmiPlugin
