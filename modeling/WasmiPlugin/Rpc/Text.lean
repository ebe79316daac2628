import WasmiPlugin.Rpc.Message

namespace WasmiPlugin
namespace Rpc

open Foundation

/-!
# Lines of text

A message is written as compact JSON followed by one newline and is read back
from the trimmed line.  The text layer is `serde_json`, which is not part of
this repository: it is a parameter, and `JsonText.Faithful` states what is
documented of it for a single value.  The results ask it only of the messages
that are actually written, since no text layer is faithful on every float or
on arbitrarily deep values.

Trimming is `str::trim`, which removes Unicode white space at both ends.
-/

def utf8 (text : String) : List UInt8 :=
  text.toUTF8.data.toList

/-- `serde_json::to_string` and `serde_json::from_str`, the latter up to the
untyped content. -/
structure JsonText where
  toString : Json -> List UInt8
  fromStr : List UInt8 -> Option Json

/-- What is documented of the text of one value: it reads back, its compact
form has no raw newline, it is a Rust `String`, and an object is in braces. -/
structure JsonText.Faithful (text : JsonText) (json : Json) : Prop where
  reads_back : text.fromStr (text.toString json) = some json
  no_newline : Lines.newline ∉ text.toString json
  valid : Utf8.Valid (text.toString json)
  braces : forall members, json = .obj members ->
    Exists fun inner => text.toString json = (0x7B :: inner) ++ [0x7D]

/-- A text that can be evaluated is faithful if it reads back, is in braces and has
the two properties of a line. -/
theorem JsonText.Faithful.of_text {text : JsonText} {json : Json}
    (reads_back : text.fromStr (text.toString json) = some json)
    (no_newline : Lines.newline ∉ text.toString json) (valid : Utf8.Valid (text.toString json))
    (braced : text.toString json =
      (0x7B :: (text.toString json).tail.dropLast) ++ [0x7D]) : text.Faithful json :=
  ⟨reads_back, no_newline, valid, fun _ _ => ⟨_, braced⟩⟩

/-! ## Trimming -/

/-- The encodings of the characters with the property `White_Space`. -/
def whiteSpace : List (List UInt8) :=
  [[0x09], [0x0A], [0x0B], [0x0C], [0x0D], [0x20], [0xC2, 0x85], [0xC2, 0xA0],
    [0xE1, 0x9A, 0x80], [0xE2, 0x80, 0x80], [0xE2, 0x80, 0x81], [0xE2, 0x80, 0x82],
    [0xE2, 0x80, 0x83], [0xE2, 0x80, 0x84], [0xE2, 0x80, 0x85], [0xE2, 0x80, 0x86],
    [0xE2, 0x80, 0x87], [0xE2, 0x80, 0x88], [0xE2, 0x80, 0x89], [0xE2, 0x80, 0x8A],
    [0xE2, 0x80, 0xA8], [0xE2, 0x80, 0xA9], [0xE2, 0x80, 0xAF], [0xE2, 0x81, 0x9F],
    [0xE3, 0x80, 0x80]]

/-- Remove words of the table from the front, at most `count` of them. -/
def stripFront (table : List (List UInt8)) : (count : Nat) -> List UInt8 -> List UInt8
  | 0, bytes => bytes
  | count + 1, bytes =>
      match table.find? fun word => word.isPrefixOf bytes with
      | none => bytes
      | some word => stripFront table count (bytes.drop word.length)

/-- `str::trim_start`.  No word of the table is empty, so as many rounds as there are
bytes suffice. -/
def trimStart (bytes : List UInt8) : List UInt8 :=
  stripFront whiteSpace bytes.length bytes

def trimEnd (bytes : List UInt8) : List UInt8 :=
  (stripFront (whiteSpace.map List.reverse) bytes.length bytes.reverse).reverse

def trim (bytes : List UInt8) : List UInt8 :=
  trimEnd (trimStart bytes)

theorem trimStart_brace (rest : List UInt8) : trimStart (0x7B :: rest) = 0x7B :: rest := by
  have kept : (whiteSpace.find? fun word => word.isPrefixOf (0x7B :: rest)) = none := by
    simp [whiteSpace, List.isPrefixOf]
  simp only [trimStart, List.length_cons, stripFront, kept]

private theorem stripBack_brace (count : Nat) (rest : List UInt8) :
    stripFront (whiteSpace.map List.reverse) count (0x7D :: rest) = 0x7D :: rest := by
  cases count with
  | zero => rfl
  | succ count =>
      have kept : ((whiteSpace.map List.reverse).find? fun word =>
          word.isPrefixOf (0x7D :: rest)) = none := by
        simp [whiteSpace, List.isPrefixOf]
      simp only [stripFront, kept]

theorem trimEnd_brace (front : List UInt8) :
    trimEnd (front ++ [0x7D, Lines.newline]) = front ++ [0x7D] := by
  have backwards : (front ++ [0x7D, Lines.newline]).reverse =
      Lines.newline :: 0x7D :: front.reverse := by simp
  have found : ((whiteSpace.map List.reverse).find? fun word =>
      word.isPrefixOf (Lines.newline :: 0x7D :: front.reverse)) = some [Lines.newline] := by
    simp [whiteSpace, List.isPrefixOf, Lines.newline]
  have long : (front ++ [0x7D, Lines.newline]).length = front.length + 1 + 1 := by simp
  have once : stripFront (whiteSpace.map List.reverse) (front.length + 1 + 1)
      (Lines.newline :: 0x7D :: front.reverse) = 0x7D :: front.reverse := by
    rw [stripFront, found]
    exact stripBack_brace (front.length + 1) front.reverse
  rw [trimEnd, backwards, long, once, List.reverse_cons, List.reverse_reverse]

theorem trim_object (inner : List UInt8) :
    trim ((0x7B :: inner) ++ [0x7D] ++ [Lines.newline]) = (0x7B :: inner) ++ [0x7D] := by
  simp only [trim, List.cons_append, trimStart_brace]
  have shape : (0x7B :: (inner ++ [0x7D] ++ [Lines.newline]) : List UInt8) =
      (0x7B :: inner) ++ [0x7D, Lines.newline] := by simp
  rw [shape, trimEnd_brace]
  rfl

/-! ## Messages as lines -/

section Framing

variable (text : JsonText)

/-- The bytes that one `write_message` writes: the compact text of the message and a
newline. -/
def frame (message : RpcMessage) : List UInt8 :=
  text.toString message.serialize ++ [Lines.newline]

/-- What `process_next_line` reads from a line,
`serde_json::from_str::<RpcMessage>(line.trim())`. -/
def decodeLine (line : List UInt8) : Option RpcMessage :=
  (text.fromStr (trim line)).bind RpcMessage.deserialize

variable {text}

theorem serialize_object (message : RpcMessage) :
    Exists fun members => message.serialize = .obj members := by
  cases message <;> exact ⟨_, rfl⟩

/-- A written line is decoded to the message it was written for. -/
theorem decodeLine_frame {message : RpcMessage} (faithful : text.Faithful message.serialize) :
    decodeLine text (frame text message) = some message := by
  rcases serialize_object message with ⟨members, object⟩
  rcases faithful.braces members object with ⟨inner, braced⟩
  have trimmed : trim (frame text message) = text.toString message.serialize := by
    rw [frame, braced]
    exact trim_object inner
  rw [decodeLine, trimmed, faithful.reads_back, Option.bind_some,
    RpcMessage.deserialize_serialize]

end Framing

/-! ## The compact form -/

/-- One byte of a string as `serde_json` writes it.  Only ASCII bytes are
escaped, so the bytes of longer characters pass unchanged. -/
def escapeByte (byte : UInt8) : List UInt8 :=
  if byte = 0x22 then utf8 "\\\""
  else if byte = 0x5C then utf8 "\\\\"
  else if byte = 0x08 then utf8 "\\b"
  else if byte = 0x09 then utf8 "\\t"
  else if byte = 0x0A then utf8 "\\n"
  else if byte = 0x0C then utf8 "\\f"
  else if byte = 0x0D then utf8 "\\r"
  else if byte < 0x20 then
    utf8 "\\u00" ++ [if byte < 0x10 then 0x30 else 0x31,
      if byte % 16 < 10 then 0x30 + byte % 16 else 0x57 + byte % 16]
  else [byte]

def compactString (value : String) : List UInt8 :=
  [0x22] ++ (utf8 value).flatMap escapeByte ++ [0x22]

def decimal (value : Nat) : List UInt8 :=
  (Nat.toDigits 10 value).map fun digit => UInt8.ofNat digit.toNat

def compactNumber : Number -> Option (List UInt8)
  | .posInt value => some (decimal value.toNat)
  | .negInt value => some ([0x2D] ++ decimal value.1.toInt.natAbs)
  | .float _ => none

mutual

/-- The text that `serde_json::to_string` writes for a value without floats. -/
def compact : Json -> Option (List UInt8)
  | .null => some (utf8 "null")
  | .bool value => some (utf8 (if value then "true" else "false"))
  | .num value => compactNumber value
  | .str value => some (compactString value)
  | .arr items => (compactItems items).map fun texts =>
      [0x5B] ++ [0x2C].intercalate texts ++ [0x5D]
  | .obj members => (compactMembers members).map fun texts =>
      [0x7B] ++ [0x2C].intercalate texts ++ [0x7D]

def compactItems : List Json -> Option (List (List UInt8))
  | [] => some []
  | item :: items => do
      let text ← compact item
      let texts ← compactItems items
      pure (text :: texts)

def compactMembers : List (String × Json) -> Option (List (List UInt8))
  | [] => some []
  | (name, value) :: members => do
      let text ← compact value
      let texts ← compactMembers members
      pure ((compactString name ++ [0x3A] ++ text) :: texts)

end

/-- A text layer that writes the compact form and reads back the values of a
list.  On those it does what `serde_json` does. -/
def compactText (values : List Json) : JsonText where
  toString json := (compact json).getD []
  fromStr line := values.find? fun json => compact json == some line

example : compact (.arr [.null, .num (.posInt 10), .str "a\"b"]) =
    some (utf8 "[null,10,\"a\\\"b\"]") := by
  decide

end Rpc
end WasmiPlugin
