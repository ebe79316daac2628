import Mathlib.Data.List.Basic
import Mathlib.Algebra.BigOperators.Group.List.Basic

namespace WasmiPlugin
namespace Foundation
namespace Lines

/-!
# Splitting a byte stream at newlines

A line keeps its newline.  The last line of a stream may lack one, and then it
is a line only if it is not empty.  `splitAfter` carries the part of the
current line that was read before, which is the form every reader that works
with a partial line needs.
-/

def newline : UInt8 := 10

/-- The lines of a stream whose current line began with `partialLine`. -/
def splitAfter : (partialLine : List UInt8) -> (stream : List UInt8) -> List (List UInt8)
  | partialLine, [] => if partialLine = [] then [] else [partialLine]
  | partialLine, byte :: stream =>
      if byte = newline then (partialLine ++ [byte]) :: splitAfter [] stream
      else splitAfter (partialLine ++ [byte]) stream

def split (stream : List UInt8) : List (List UInt8) :=
  splitAfter [] stream

/-- The first complete line of a stream, and what follows it. -/
def takeLine : (stream : List UInt8) -> Option (List UInt8 × List UInt8)
  | [] => none
  | byte :: stream =>
      if byte = newline then some ([byte], stream)
      else (takeLine stream).map fun found => (byte :: found.1, found.2)

theorem takeLine_some {stream line rest : List UInt8}
    (found : takeLine stream = some (line, rest)) :
    stream = line ++ rest ∧
      Exists fun body => newline ∉ body ∧ line = body ++ [newline] := by
  induction stream generalizing line with
  | nil => cases found
  | cons byte stream inductionHypothesis =>
      unfold takeLine at found
      by_cases ends : byte = newline
      · rw [if_pos ends] at found
        cases found
        exact ⟨rfl, [], List.not_mem_nil, by rw [ends]; rfl⟩
      · rw [if_neg ends, Option.map_eq_some_iff] at found
        rcases found with ⟨⟨later, rest'⟩, foundLater, same⟩
        cases same
        rcases inductionHypothesis foundLater with ⟨whole, body, plain, shape⟩
        refine ⟨by rw [whole]; rfl, byte :: body, ?_, by rw [shape]; rfl⟩
        exact fun member => (List.mem_cons.mp member).elim (fun same => ends same.symm) plain

theorem takeLine_none_iff (stream : List UInt8) : takeLine stream = none ↔ newline ∉ stream := by
  induction stream with
  | nil => exact ⟨fun _ => List.not_mem_nil, fun _ => rfl⟩
  | cons byte stream inductionHypothesis =>
      unfold takeLine
      by_cases ends : byte = newline
      · rw [if_pos ends, ends]
        exact ⟨fun impossible => (by cases impossible),
          fun absent => absurd List.mem_cons_self absent⟩
      · rw [if_neg ends, Option.map_eq_none_iff, inductionHypothesis, List.mem_cons, not_or]
        exact ⟨fun later => ⟨fun same => ends same.symm, later⟩, fun absent => absent.2⟩

theorem takeLine_append {body rest : List UInt8} (plain : newline ∉ body) :
    takeLine (body ++ newline :: rest) = some (body ++ [newline], rest) := by
  induction body with
  | nil => simp only [List.nil_append, takeLine, if_true]
  | cons byte body inductionHypothesis =>
      have different : byte ≠ newline := fun same => plain (same ▸ List.mem_cons_self)
      simp only [List.cons_append, takeLine, if_neg different,
        inductionHypothesis fun member => plain (List.mem_cons_of_mem _ member), Option.map_some]

theorem takeLine_append_right {stream line rest : List UInt8}
    (found : takeLine stream = some (line, rest)) (more : List UInt8) :
    takeLine (stream ++ more) = some (line, rest ++ more) := by
  rcases takeLine_some found with ⟨shape, body, plain, ends⟩
  rw [shape, ends, List.append_assoc, List.append_assoc, List.singleton_append]
  exact takeLine_append plain

/-- Bytes without a newline before a stream belong to its first line. -/
theorem takeLine_behind {body stream line rest : List UInt8} (without : newline ∉ body)
    (found : takeLine stream = some (line, rest)) :
    takeLine (body ++ stream) = some (body ++ line, rest) := by
  rcases takeLine_some found with ⟨shape, later, plain, ends⟩
  have both : newline ∉ body ++ later := fun listed =>
    (List.mem_append.mp listed).elim without plain
  rw [shape, ends, List.append_assoc, List.singleton_append, ← List.append_assoc,
    takeLine_append both, List.append_assoc]

theorem splitAfter_plain (partialLine : List UInt8) {body : List UInt8} (plain : newline ∉ body)
    (rest : List UInt8) :
    splitAfter partialLine (body ++ rest) = splitAfter (partialLine ++ body) rest := by
  induction body generalizing partialLine with
  | nil => rw [List.nil_append, List.append_nil]
  | cons byte body inductionHypothesis =>
      have different : byte ≠ newline := fun same => plain (same ▸ List.mem_cons_self)
      rw [List.cons_append, splitAfter, if_neg different,
        inductionHypothesis _ fun member => plain (List.mem_cons_of_mem _ member),
        List.append_assoc, List.singleton_append]

/-- A complete line comes off the front of the stream. -/
theorem splitAfter_line (partialLine : List UInt8) {body : List UInt8} (plain : newline ∉ body)
    (rest : List UInt8) :
    splitAfter partialLine (body ++ newline :: rest) =
      (partialLine ++ body ++ [newline]) :: split rest := by
  rw [splitAfter_plain _ plain, splitAfter, if_pos rfl, split]

/-- A stream of framed texts splits into exactly those frames, followed by the
lines of what comes after them. -/
theorem split_frames_append {texts : List (List UInt8)}
    (plain : forall text, text ∈ texts -> newline ∉ text) (rest : List UInt8) :
    split ((texts.flatMap fun text => text ++ [newline]) ++ rest) =
      (texts.map fun text => text ++ [newline]) ++ split rest := by
  induction texts with
  | nil => rfl
  | cons text texts inductionHypothesis =>
      rw [List.flatMap_cons, List.append_assoc, List.append_assoc, List.singleton_append, split,
        splitAfter_line [] (plain text List.mem_cons_self),
        inductionHypothesis fun later member => plain later (List.mem_cons_of_mem _ member)]
      rfl

/-- What has arrived of one line is at most one line. -/
theorem split_prefix_length {part body : List UInt8} (plain : newline ∉ body)
    (arrived : part <+: body ++ [newline]) : (split part).length ≤ 1 := by
  rcases List.prefix_concat_iff.mp arrived with whole | shorter
  · rw [whole, split, splitAfter_line [] plain]
    exact Nat.le_refl 1
  · have without : newline ∉ part := fun member => plain (shorter.subset member)
    rw [split, ← List.append_nil part, splitAfter_plain [] without, splitAfter]
    split <;> simp

/-- After complete lines, a stream is at the start of a line exactly when the
part since then is empty. -/
theorem ends_complete_iff {done part : List UInt8}
    (complete : done = [] ∨ done.getLast? = some newline) (plain : newline ∉ part) :
    (done ++ part = [] ∨ (done ++ part).getLast? = some newline) ↔ part = [] := by
  constructor
  · intro atStart
    rcases atStart with empty | ended
    · exact (List.append_eq_nil_iff.mp empty).2
    · rcases List.eq_nil_or_concat part with empty | ⟨body, last, shape⟩
      · exact empty
      · rw [List.concat_eq_append] at shape
        subst shape
        rw [← List.append_assoc, List.getLast?_concat, Option.some.injEq] at ended
        exact absurd (List.mem_append_right body (List.mem_singleton.mpr ended.symm)) plain
  · intro empty
    rw [empty, List.append_nil]
    exact complete

/-! ## Cutting a stream while it grows -/

/-- A reader has cut its stream into some lines, has read a part of the next one,
and has the rest ahead of it.  This is so whatever is appended, unless the stream
has ended. -/
def CutInto (ended : Bool) (stream : List UInt8) (taken : List (List UInt8))
    (partialLine ahead : List UInt8) : Prop :=
  forall more, (ended = true -> more = []) ->
    split (stream ++ more) = taken ++ splitAfter partialLine (ahead ++ more)

namespace CutInto

variable {ended : Bool} {stream : List UInt8} {taken : List (List UInt8)}
  {partialLine ahead : List UInt8}

/-- A reader that has read nothing has taken no lines, and the whole stream is ahead of it. -/
theorem start (ended : Bool) (stream : List UInt8) : CutInto ended stream [] [] stream :=
  fun _ _ => rfl

/-- The lines that a reader has taken and those it will find are the lines of the
stream as it stands. -/
theorem whole (cut : CutInto ended stream taken partialLine ahead) :
    split stream = taken ++ splitAfter partialLine ahead := by
  have present := cut [] fun _ => rfl
  rwa [List.append_nil, List.append_nil] at present

/-- Bytes that arrive are appended to the stream and to what is ahead of the reader. -/
theorem arrive (cut : CutInto false stream taken partialLine ahead) (bytes : List UInt8) :
    CutInto false (stream ++ bytes) taken partialLine (ahead ++ bytes) := by
  intro more _
  rw [List.append_assoc, List.append_assoc]
  exact cut (bytes ++ more) fun impossible => (by cases impossible)

/-- The end of the stream leaves the cut as it is. -/
theorem finish (cut : CutInto ended stream taken partialLine ahead) :
    CutInto true stream taken partialLine ahead := by
  intro more none
  exact cut more fun _ => none rfl

/-- Bytes without a newline that are read become a part of the current line. -/
theorem plain {body : List UInt8} (without : newline ∉ body)
    (cut : CutInto ended stream taken partialLine (body ++ ahead)) :
    CutInto ended stream taken (partialLine ++ body) ahead := by
  intro more follows
  rw [cut more follows, List.append_assoc, splitAfter_plain _ without]

/-- When the reader gets to a newline it has taken one more line. -/
theorem line {found : List UInt8} {rest : List UInt8}
    (first : takeLine ahead = some (found, rest))
    (cut : CutInto ended stream taken partialLine ahead) :
    CutInto ended stream (taken ++ [partialLine ++ found]) [] rest := by
  rcases takeLine_some first with ⟨shape, body, without, ends⟩
  intro more follows
  rw [cut more follows, shape, ends, List.append_assoc, List.append_assoc, List.singleton_append,
    splitAfter_line _ without, List.append_assoc, List.append_assoc, List.singleton_append]
  rfl

/-- When the stream ends within a line, that line is its last, and the reader takes it. -/
theorem last (some : partialLine ≠ []) (cut : CutInto true stream taken partialLine []) :
    CutInto true stream (taken ++ [partialLine]) [] [] := by
  intro more follows
  have none := follows rfl
  subst none
  rw [cut [] fun _ => rfl, List.append_nil, splitAfter, if_neg some, splitAfter, if_pos rfl,
    List.append_nil]

end CutInto

/-- The lines of a stream that have come to their end: with one more newline the
last line is one that had not. -/
def completeLines (stream : List UInt8) : List (List UInt8) :=
  (split (stream ++ [newline])).dropLast

theorem splitAfter_newline (partialLine stream : List UInt8) :
    splitAfter partialLine (stream ++ [newline]) ≠ [] := by
  induction stream generalizing partialLine with
  | nil => simp [splitAfter]
  | cons byte stream inductionHypothesis =>
      rw [List.cons_append, splitAfter]
      split
      · exact List.cons_ne_nil _ _
      · exact inductionHypothesis _

/-- What a reader of an open stream has taken are the first of the complete lines. -/
theorem CutInto.completeLines_eq {stream : List UInt8} {taken : List (List UInt8)}
    {partialLine ahead : List UInt8} (cut : CutInto false stream taken partialLine ahead) :
    completeLines stream = taken ++ (splitAfter partialLine (ahead ++ [newline])).dropLast := by
  rw [completeLines, cut [newline] nofun,
    List.dropLast_append_of_ne_nil (splitAfter_newline partialLine ahead)]

theorem CutInto.completeLines {stream : List UInt8} {taken : List (List UInt8)}
    {partialLine : List UInt8} (cut : CutInto false stream taken partialLine []) :
    Lines.completeLines stream = taken := by
  rw [cut.completeLines_eq, List.nil_append, splitAfter, if_pos rfl, splitAfter, if_pos rfl,
    List.dropLast_singleton, List.append_nil]

/-- The complete lines of a stream are still its first complete lines when more is appended. -/
theorem completeLines_prefix (stream more : List UInt8) :
    completeLines stream <+: split (stream ++ more) := by
  suffices forall partialLine, (splitAfter partialLine (stream ++ [newline])).dropLast <+:
      splitAfter partialLine (stream ++ more) from this []
  intro partialLine
  induction stream generalizing partialLine with
  | nil =>
      rw [List.nil_append, splitAfter, if_pos rfl, splitAfter, if_pos rfl]
      exact List.nil_prefix
  | cons byte stream inductionHypothesis =>
      rw [List.cons_append, List.cons_append, splitAfter, splitAfter]
      split
      · rw [List.dropLast_cons_of_ne_nil (splitAfter_newline [] stream)]
        exact (List.prefix_cons_inj _).mpr (inductionHypothesis [])
      · exact inductionHypothesis _

/-- A stream is empty or its last byte is a newline. -/
def EndsLine (stream : List UInt8) : Prop :=
  stream = [] ∨ stream.getLast? = some newline

instance (stream : List UInt8) : Decidable (EndsLine stream) :=
  inferInstanceAs (Decidable (_ ∨ _))

theorem splitAfter_ended (partialLine front rest : List UInt8) :
    splitAfter partialLine (front ++ newline :: rest) =
      splitAfter partialLine (front ++ [newline]) ++ split rest := by
  induction front generalizing partialLine with
  | nil => simp only [List.nil_append, splitAfter, if_true, split, List.cons_append]
  | cons byte front inductionHypothesis =>
      rw [List.cons_append, List.cons_append, splitAfter, splitAfter]
      split
      · rw [inductionHypothesis, List.cons_append]
      · exact inductionHypothesis _

/-- All lines of a stream are complete that does not end within one. -/
theorem EndsLine.completeLines {stream : List UInt8} (ends : EndsLine stream) :
    completeLines stream = split stream := by
  rcases ends with rfl | last
  · rfl
  · rcases List.getLast?_eq_some_iff.mp last with ⟨front, rfl⟩
    rw [Lines.completeLines, List.append_assoc, List.singleton_append, split, splitAfter_ended,
      ← split]
    exact List.dropLast_concat

/-- Where a stream does not end within a line, a reader that has nothing ahead of it
holds no part of a line. -/
theorem CutInto.complete {stream : List UInt8} {taken : List (List UInt8)}
    {partialLine : List UInt8} (cut : CutInto false stream taken partialLine [])
    (ends : EndsLine stream) : partialLine = [] := by
  have free (more : List UInt8) : split (stream ++ more) = taken ++ splitAfter partialLine more :=
    cut more fun impossible => (by cases impossible)
  have present := cut.whole
  by_contra some
  rw [splitAfter, if_neg some] at present
  rcases ends with empty | last
  · subst empty
    have none : taken ++ [partialLine] = [] := present.symm
    exact absurd (List.append_eq_nil_iff.mp none).2 (List.cons_ne_nil _ _)
  · rcases List.getLast?_eq_some_iff.mp last with ⟨front, shape⟩
    subst shape
    have grown := free [newline]
    rw [List.append_assoc, List.singleton_append, split, splitAfter_ended, ← split,
      present] at grown
    have lengths := congrArg List.length grown
    simp [split, splitAfter] at lengths

/-- Splitting neither loses nor invents a byte: the lines together are the stream. -/
theorem splitAfter_flatten (partialLine stream : List UInt8) :
    (splitAfter partialLine stream).flatten = partialLine ++ stream := by
  induction stream generalizing partialLine with
  | nil =>
      unfold splitAfter
      split
      · next empty => rw [empty, List.flatten_nil, List.nil_append]
      · exact List.flatten_cons
  | cons byte stream inductionHypothesis =>
      unfold splitAfter
      split
      · rw [List.flatten_cons, inductionHypothesis, List.nil_append, List.append_assoc]
        rfl
      · rw [inductionHypothesis, List.append_assoc]
        rfl

end Lines
end Foundation
end WasmiPlugin
