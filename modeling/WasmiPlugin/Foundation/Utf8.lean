import Mathlib.Data.List.Basic

namespace WasmiPlugin
namespace Foundation
namespace Utf8

/-!
# Well-formed UTF-8, one byte at a time

A finite acceptor for the byte sequences that are valid UTF-8: no overlong
form, no surrogate, nothing above U+10FFFF.  A prefix of a stream ends at a
character boundary exactly when the acceptor is back in its first state, which
is what the results about cut streams are stated with.

Apart from composition, the only fact about the encoding that line framing
needs is that an ASCII byte is never part of a longer character.
-/

/-- The bytes allowed next inside a character.  Only the byte after certain
lead bytes is restricted beyond being a continuation byte. -/
inductive Window where
  | continuation
  | fromA0
  | upTo9F
  | from90
  | upTo8F
  deriving DecidableEq, Repr

def Window.low : Window -> UInt8
  | .fromA0 => 0xA0
  | .from90 => 0x90
  | _ => 0x80

def Window.high : Window -> UInt8
  | .upTo9F => 0x9F
  | .upTo8F => 0x8F
  | _ => 0xBF

/-- Between characters, or inside one with `owed` bytes due after the next. -/
inductive Place where
  | boundary
  | inside (owed : Nat) (next : Window)
  deriving DecidableEq, Repr

/-- Where the first byte of a character leads, if it can be one. -/
def lead (byte : UInt8) : Option Place :=
  if byte < 0x80 then some .boundary
  else if byte < 0xC2 then none
  else if byte < 0xE0 then some (.inside 0 .continuation)
  else if byte = 0xE0 then some (.inside 1 .fromA0)
  else if byte = 0xED then some (.inside 1 .upTo9F)
  else if byte < 0xF0 then some (.inside 1 .continuation)
  else if byte = 0xF0 then some (.inside 2 .from90)
  else if byte < 0xF4 then some (.inside 2 .continuation)
  else if byte = 0xF4 then some (.inside 2 .upTo8F)
  else none

def advance : Place -> UInt8 -> Option Place
  | .boundary, byte => lead byte
  | .inside owed next, byte =>
      if next.low ≤ byte ∧ byte ≤ next.high then
        match owed with
        | 0 => some .boundary
        | owed + 1 => some (.inside owed .continuation)
      else none

def scan : Place -> List UInt8 -> Option Place
  | place, [] => some place
  | place, byte :: bytes =>
      match advance place byte with
      | none => none
      | some next => scan next bytes

/-- A sequence of bytes is a whole number of well-formed characters. -/
def Valid (bytes : List UInt8) : Prop :=
  scan .boundary bytes = some .boundary

instance (bytes : List UInt8) : Decidable (Valid bytes) :=
  inferInstanceAs (Decidable (_ = _))

theorem scan_append (place : Place) (left right : List UInt8) :
    scan place (left ++ right) = (scan place left).bind fun next => scan next right := by
  induction left generalizing place with
  | nil => rfl
  | cons byte left inductionHypothesis =>
      simp only [List.cons_append, scan]
      cases advance place byte with
      | none => rfl
      | some next => exact inductionHypothesis next

theorem valid_nil : Valid [] := rfl

/-- After whole characters the acceptor starts afresh, so the rest of a stream
is well formed exactly when the stream is. -/
theorem valid_append_iff {left : List UInt8} (valid : Valid left) (right : List UInt8) :
    Valid (left ++ right) ↔ Valid right := by
  unfold Valid at valid ⊢
  rw [scan_append, valid, Option.bind_some]

private theorem ascii_not_inside (byte : UInt8) (ascii : byte < 0x80) (owed : Nat) (next : Window) :
    advance (.inside owed next) byte = none := by
  have below : ¬ (next.low ≤ byte ∧ byte ≤ next.high) := by
    intro inWindow
    have least : (0x80 : UInt8) ≤ next.low := by cases next <;> decide
    exact absurd (UInt8.le_trans least inWindow.1) (UInt8.not_le.mpr ascii)
  simp only [advance, if_neg below]

/-- An ASCII byte can only stand between characters, and leaves the acceptor
there. -/
theorem advance_ascii {place next : Place} {byte : UInt8} (ascii : byte < 0x80)
    (accepted : advance place byte = some next) : place = .boundary ∧ next = .boundary := by
  cases place with
  | boundary =>
      simp only [advance, lead, if_pos ascii, Option.some.injEq] at accepted
      exact ⟨rfl, accepted.symm⟩
  | inside owed window =>
      rw [ascii_not_inside byte ascii] at accepted
      cases accepted

/-- An ASCII byte in a well-formed sequence ends a character, so the parts on
both sides of it are well formed. -/
theorem valid_ascii_split {left right : List UInt8} {byte : UInt8} (ascii : byte < 0x80)
    (valid : Valid (left ++ byte :: right)) : Valid (left ++ [byte]) ∧ Valid right := by
  unfold Valid at valid ⊢
  rw [scan_append] at valid ⊢
  cases reached : scan .boundary left with
  | none =>
      rw [reached] at valid
      cases valid
  | some place =>
      rw [reached, Option.bind_some, scan] at valid
      cases accepted : advance place byte with
      | none =>
          rw [accepted] at valid
          cases valid
      | some next =>
          rw [accepted] at valid
          have ends := (advance_ascii ascii accepted).2
          subst ends
          refine ⟨?_, valid⟩
          simp only [Option.bind_some, scan, accepted]

theorem valid_ascii {bytes : List UInt8} (ascii : forall byte, byte ∈ bytes -> byte < 0x80) :
    Valid bytes := by
  induction bytes with
  | nil => rfl
  | cons byte bytes inductionHypothesis =>
      have first : advance .boundary byte = some .boundary := by
        simp only [advance, lead, if_pos (ascii byte List.mem_cons_self)]
      unfold Valid scan
      rw [first]
      exact inductionHypothesis fun later member => ascii later (List.mem_cons_of_mem _ member)

/-- Two bytes of the Latin letters with accents form one character. -/
example : Valid [0xC3, 0xA9] ∧ ¬ Valid [0xC3] ∧ ¬ Valid [0xA9] := by decide

end Utf8
end Foundation
end WasmiPlugin
